import DepBundle.Proofs.Syntax.Extent
import DepBundle.Proofs.Syntax.Layout
import DepBundle.Syntax.Parse
/-!
# Syntax — ways along a text

A place is sound where the token in view is the text from where it begins
(`Place.Sound`). Reading leads from one sound place to another along a way on
which some trees are read, one after another (`Way`). What a reader does is told
from the places it may begin at (`Along`), step by step: what is looked at changes
nothing, what is passed makes the way longer, and a tree takes the place of those
right below it (`Along.tree`).
-/

namespace DepBundle.Syntax

variable {source : List Char} {p q r t : Place} {nodes more : List Node} {a c : Node}
  {shape : Shape Node} {moved moved' : Bool}

/-- A place in a text that has neither types nor elements. -/
structure Place.Sound (source : List Char) (p : Place) : Prop where
  untyped : p.dialect.typed = false
  plain : p.dialect.markup = false
  /-- The token in view begins behind the one before. -/
  last_le : p.last ≤ p.start
  here : Reaches 0 source p.start p.here
  /-- It is what the text begins with from there. -/
  view : Lexeme.Extends ⟨p.token, p.stop, p.rest⟩ p.start p.here

/-- Whether two places differ at most in what is noted about them. -/
structure Place.Same (p q : Place) : Prop where
  dialect : q.dialect = p.dialect
  token : q.token = p.token
  start : q.start = p.start
  here : q.here = p.here
  stop : q.stop = p.stop
  rest : q.rest = p.rest
  last : q.last = p.last

theorem Place.Sound.start_le_stop (h : p.Sound source) : p.start ≤ p.stop := h.view.reaches.le

/-- A token that is written in one way only is as long as that. -/
theorem Place.Sound.stop_eq (h : p.Sound source) {text : String}
    (htext : p.token.spelled? = some text) : p.stop = p.start + text.length := by
  obtain ⟨read, hread, hstop⟩ := h.view.reaches
  have hspelled := h.view.spelled text htext
  rw [hspelled] at hread
  have hlength := congrArg List.length (List.append_cancel_right hread)
  rw [String.length_toList] at hlength
  dsimp only at hstop
  omega

theorem Place.Sound.of_same (h : p.Sound source) (hpq : p.Same q) : q.Sound source := by
  refine ⟨?_, ?_, ?_, ?_, ?_⟩
  · rw [hpq.dialect]
    exact h.untyped
  · rw [hpq.dialect]
    exact h.plain
  · rw [hpq.last, hpq.start]
    exact h.last_le
  · rw [hpq.start, hpq.here]
    exact h.here
  · rw [hpq.token, hpq.stop, hpq.rest, hpq.start, hpq.here]
    exact h.view

/-- A place is sound too with what it is read anew as. -/
theorem Place.Sound.reread (h : p.Sound source) {l : Lexeme} (hl : l.Extends p.start p.here) :
    { p with token := l.token, stop := l.stop, rest := l.rest }.Sound source :=
  ⟨h.untyped, h.plain, h.last_le, h.here, hl⟩

/-- **The next place is sound**, whatever the token in view is. -/
theorem Parse.next_sound (huntyped : p.dialect.typed = false) (hplain : p.dialect.markup = false)
    (hrest : Reaches 0 source p.stop p.rest) :
    (next p).Sound source ∧ (next p).last = p.stop := by
  unfold next
  dsimp only
  split
  · exact ⟨⟨huntyped, hplain, Nat.le_refl _, hrest, .nothing⟩, rfl⟩
  · rename_i g hgap
    have hreach := gap_reaches hgap
    exact ⟨⟨huntyped, hplain, hreach.le, hrest.trans hreach, lexeme_extends _ _⟩, rfl⟩

/-! ## Ways -/

/-- A way from one place to another, with the trees that are read on it. The last
one may stand where the token in view does. -/
structure Near (source : List Char) (p : Place) (nodes : List Node) (q : Place) : Prop where
  sound : q.Sound source
  start_le : p.start ≤ q.start
  last_le : p.last ≤ q.last
  lies : ∀ c ∈ nodes, c.Lies source
  row : nodes.Pairwise fun c d => c.span.stop ≤ d.begins
  inside : ∀ c ∈ nodes, p.start ≤ c.begins ∧ c.span.stop ≤ q.start

/-- **A way from one place to another**, with the trees that are read on it. -/
structure Way (source : List Char) (moved : Bool) (p : Place) (nodes : List Node) (q : Place) : Prop
    extends Near source p nodes q where
  /-- The trees end where the last token that is passed does or earlier. -/
  ended : ∀ c ∈ nodes, c.span.stop ≤ q.last
  /-- Whether a token is passed for certain. -/
  passed : moved → p.start < q.last

namespace Near

theorem refl (h : p.Sound source) : Near source p [] p :=
  ⟨h, Nat.le_refl _, Nat.le_refl _, by simp, List.Pairwise.nil, by simp⟩

theorem trans (h : Near source p nodes q) (h' : Near source q more r) :
    Near source p (nodes ++ more) r := by
  refine ⟨h'.sound, Nat.le_trans h.start_le h'.start_le, Nat.le_trans h.last_le h'.last_le,
    fun c hc => ?_, List.pairwise_append.2 ⟨h.row, h'.row, fun c hc d hd => ?_⟩, fun c hc => ?_⟩
  · exact (List.mem_append.1 hc).elim (h.lies c) (h'.lies c)
  · exact Nat.le_trans (h.inside c hc).2 (h'.inside d hd).1
  · rcases List.mem_append.1 hc with hc | hc
    · exact ⟨(h.inside c hc).1, Nat.le_trans (h.inside c hc).2 h'.start_le⟩
    · exact ⟨Nat.le_trans h.start_le (h'.inside c hc).1, (h'.inside c hc).2⟩

/-- Past another token, all trees end before the last one. -/
theorem pass (h : Near source p nodes q) (h' : Way source true q [] r) :
    Way source true p nodes r := by
  have hpassed := h'.passed rfl
  have htrans := h.trans h'.toNear
  rw [List.append_nil] at htrans
  refine ⟨htrans, fun c hc => ?_, fun _ => Nat.lt_of_le_of_lt h.start_le hpassed⟩
  have hinside := h.inside c hc
  omega

end Near

namespace Way

theorem refl (h : p.Sound source) : Way source false p [] p := ⟨.refl h, by simp, by simp⟩

/-- Whether a token is passed may be left open. -/
theorem forget (h : Way source moved p nodes q) : Way source false p nodes q :=
  ⟨h.toNear, h.ended, fun hfalse => absurd hfalse Bool.false_ne_true⟩

/-- Some of the trees may be left out. -/
theorem sublist (h : Way source moved p nodes q) (hmore : more.Sublist nodes) :
    Way source moved p more q :=
  ⟨⟨h.sound, h.start_le, h.last_le, fun c hc => h.lies c (hmore.subset hc), h.row.sublist hmore,
    fun c hc => h.inside c (hmore.subset hc)⟩, fun c hc => h.ended c (hmore.subset hc), h.passed⟩

theorem trans (h : Way source moved p nodes q) (h' : Way source moved' q more r) :
    Way source (moved || moved') p (nodes ++ more) r := by
  refine ⟨h.toNear.trans h'.toNear, fun c hc => ?_, fun hmoved => ?_⟩
  · rcases List.mem_append.1 hc with hc | hc
    · exact Nat.le_trans (h.ended c hc) h'.last_le
    · exact h'.ended c hc
  · rcases Bool.or_eq_true_iff.1 hmoved with hmoved | hmoved
    · exact Nat.lt_of_lt_of_le (h.passed hmoved) h'.last_le
    · exact Nat.lt_of_le_of_lt h.start_le (h'.passed hmoved)

/-- What is noted about a place makes no difference. -/
theorem same (h : Way source moved p nodes q) (hqr : q.Same r) : Way source moved p nodes r := by
  refine ⟨⟨h.sound.of_same hqr, ?_, ?_, h.lies, h.row, ?_⟩, ?_, ?_⟩
  · rw [hqr.start]
    exact h.start_le
  · rw [hqr.last]
    exact h.last_le
  · rw [hqr.start]
    exact h.inside
  · rw [hqr.last]
    exact h.ended
  · rw [hqr.last]
    exact h.passed

/-- Of where it begins a way only knows the numbers. -/
theorem of_start (h : Way source moved q nodes r) (hstart : q.start = p.start)
    (hlast : q.last = p.last) : Way source moved p nodes r := by
  refine ⟨⟨h.sound, ?_, ?_, h.lies, h.row, ?_⟩, h.ended, ?_⟩
  · rw [← hstart]
    exact h.start_le
  · rw [← hlast]
    exact h.last_le
  · rw [← hstart]
    exact h.inside
  · rw [← hstart]
    exact h.passed

theorem of_same (h : Way source moved q nodes r) (hpq : p.Same q) : Way source moved p nodes r :=
  h.of_start hpq.start hpq.last

end Way

/-! ## Trees -/

/-- **Whether a tree opens at a place:** it stands there, and the trees in it stand
after the keyword it opens with. -/
structure Node.Opens (source : List Char) (a : Node) (start : ℕ) : Prop where
  start_eq : a.span.start = start
  opening_le : a.opening source ≤ a.span.stop
  front : ∀ c ∈ a.children, a.opening source ≤ c.begins

/-- **A way on which one tree is read**, which opens where the way begins. -/
structure One (source : List Char) (p : Place) (a : Node) (q : Place) : Prop where
  way : Way source true p [a] q
  opens : a.Opens source p.start

/-- What opens at a place begins there. -/
theorem One.begins_eq (h : One source p a q) : a.begins = a.span.start := by
  have hinside := h.way.inside a (List.mem_singleton_self a)
  have hle := a.begins_le_start
  have hstart := h.opens.start_eq
  omega

theorem One.same (h : One source p a q) (hqr : q.Same r) : One source p a r :=
  ⟨h.way.same hqr, h.opens⟩

theorem One.of_start (h : One source q a r) (hstart : q.start = p.start) (hlast : q.last = p.last) :
    One source p a r :=
  ⟨h.way.of_start hstart hlast, hstart ▸ h.opens⟩

theorem One.of_same (h : One source q a r) (hpq : p.Same q) : One source p a r :=
  h.of_start hpq.start hpq.last

namespace Way

/-- A tree in the place of those that are read. -/
theorem fold (h : Way source moved p nodes q) (hlies : a.Lies source) (hfrom : p.start ≤ a.begins)
    (hto : a.span.stop ≤ q.last) : Way source moved p [a] q := by
  have hend := h.sound.last_le
  refine ⟨⟨h.sound, h.start_le, h.last_le, ?_, List.pairwise_singleton _ _, ?_⟩, ?_, h.passed⟩
  all_goals
    intro c hc
    obtain rfl := List.mem_singleton.1 hc
  · exact hlies
  · exact ⟨hfrom, by omega⟩
  · exact hto

/-- A tree without trees in it, in the place of one that is read. -/
theorem relabel (h : Way source moved p [a] q) (hplain : shape.carries = false)
    (hchildren : shape.children = []) (hsits : Node.Sits source a.span shape) :
    Way source moved p [⟨a.span, shape⟩] q := by
  have ha := h.lies a (List.mem_singleton_self a)
  have hinside := h.inside a (List.mem_singleton_self a)
  have hended := h.ended a (List.mem_singleton_self a)
  have hbegins : (Node.mk a.span shape).begins = a.span.start := Node.begins_of_not_carries hplain
  have hle := a.begins_le_start
  refine h.fold (.mk ⟨ha.stands.ordered, ?_, ?_, hsits⟩ ?_) (by omega) hended
  all_goals
    rw [hchildren]
    simp

/-- **A tree of the trees that are read** lies in the text and opens where the way
begins. -/
theorem tree (h : Way source true p nodes q) (hplain : shape.carries = false)
    (hchildren : shape.children = nodes)
    (hsits : ∀ stop, p.start < stop → Node.Sits source ⟨p.start, stop⟩ shape) :
    One source p ⟨⟨p.start, q.last⟩, shape⟩ q := by
  have hpassed := h.passed rfl
  have hbegins : (Node.mk ⟨p.start, q.last⟩ shape).begins = p.start :=
    Node.begins_of_not_carries hplain
  have hopening : (Node.mk ⟨p.start, q.last⟩ shape).opening source = p.start :=
    Node.opening_of_not_carries hplain
  subst hchildren
  refine ⟨h.fold (.mk ⟨Nat.le_of_lt hpassed, h.row, fun c hc => ?_, hsits _ hpassed⟩ h.lies)
    (Nat.le_of_eq hbegins.symm) (Nat.le_refl _), ⟨rfl, ?_, fun c hc => ?_⟩⟩
  · rw [hbegins]
    exact ⟨(h.inside c hc).1, h.ended c hc⟩
  · rw [hopening]
    exact Nat.le_of_lt hpassed
  · rw [hopening]
    exact (h.inside c hc).1

/-- The trees in one that is read. -/
theorem spread (h : Way source moved p [a] q) : Way source moved p a.children q := by
  have ha := h.lies a (List.mem_singleton_self a)
  have hinside := h.inside a (List.mem_singleton_self a)
  have hended := h.ended a (List.mem_singleton_self a)
  refine ⟨⟨h.sound, h.start_le, h.last_le, fun c hc =>
    ha.child hc, ha.stands.row, ?_⟩, ?_, h.passed⟩
  all_goals
    intro c hc
    have hc := ha.inside hc
    omega

end Way

/-! ## Reading -/

namespace Parse

variable {α β : Type} {m : Parse α} {f : α → Parse β} {W : Place → Prop} {Q : β → Place → Prop}
  {kids : α → List Node}

/-- **What a reader comes to:** from every place in a set it leads to results and
places of a kind, where it does not fail. -/
def Along (source : List Char) (W : Place → Prop) (m : Parse β) (Q : β → Place → Prop) : Prop :=
  ∀ p, p.Sound source → W p → ∀ b q, m p = some (b, q) → Q b q

/-- Whether a reader goes a way on which trees are read. -/
def Reads (source : List Char) (moved : Bool) (m : Parse α) (kids : α → List Node) : Prop :=
  ∀ p, Along source (Eq p) m fun a q => Way source moved p (kids a) q

/-- Whether a reader reads one tree that opens where it begins. -/
def ReadsOne (source : List Char) (m : Parse Node) : Prop :=
  ∀ p, Along source (Eq p) m (One source p)

/-- Whether a reader only looks. -/
def Keeps (m : Parse α) : Prop := ∀ p a q, m p = some (a, q) → q = p

theorem bind_some {m : Parse α} {b : β} (h : (m >>= f) p = some (b, r)) :
    ∃ a q, m p = some (a, q) ∧ f a q = some (b, r) := by
  change (m p >>= fun x => f x.1 x.2) = _ at h
  obtain ⟨⟨a, q⟩, hm, hf⟩ := Option.bind_eq_some_iff.1 h
  exact ⟨a, q, hm, hf⟩

namespace Along

theorem mono {R : β → Place → Prop} {m : Parse β} (h : Along source W m R)
    (hR : ∀ b q, R b q → Q b q) : Along source W m Q :=
  fun p hp hW b q hm => hR b q (h p hp hW b q hm)

/-- From fewer places. -/
theorem of_imp {V : Place → Prop} {m : Parse β} (h : Along source V m Q)
    (hW : ∀ q, W q → V q) : Along source W m Q :=
  fun p hp hp' => h p hp (hW p hp')

/-- Reading from each place on its own. -/
theorem each {m : Parse β} (h : ∀ p, p.Sound source → W p → Along source (Eq p) m Q) :
    Along source W m Q :=
  fun p hp hW => h p hp hW p hp rfl

/-- The place where reading begins is sound. -/
theorem sound {m : Parse β} (h : p.Sound source → Along source (Eq p) m Q) :
    Along source (Eq p) m Q := by
  rintro q hq rfl
  exact h hq p hq rfl

theorem pure {b : β} (h : ∀ q, q.Sound source → W q → Q b q) : Along source W (pure b) Q := by
  rintro p hp hW _ _ ⟨⟩
  exact h p hp hW

theorem refuse : Along source W (refuse : Parse β) Q := by
  rintro p hp hW b q ⟨⟩

/-- Going on where the first step has come to. -/
theorem bind {R : α → Place → Prop} (hm : Along source W m R) (hR : ∀ a q, R a q → q.Sound source)
    (hf : ∀ a, Along source (R a) (f a) Q) : Along source W (m >>= f) Q := by
  intro p hp hW b r hrun
  obtain ⟨a, q, hfirst, hrest⟩ := bind_some hrun
  have ha := hm p hp hW a q hfirst
  exact hf a q (hR a q ha) ha b r hrest

/-- What is looked at changes nothing. -/
theorem look (hm : Keeps m) (hf : ∀ a, Along source W (f a) Q) : Along source W (m >>= f) Q := by
  intro p hp hW b r hrun
  obtain ⟨a, q, hfirst, hrest⟩ := bind_some hrun
  obtain rfl := hm p a q hfirst
  exact hf a q hp hW b r hrest

/-- A value that is given. -/
theorem value {a : α} (h : Along source W (f a) Q) : Along source W (Pure.pure a >>= f) Q := h

theorem require {c : Bool} {f : Unit → Parse β} (hf : c = true → Along source W (f ()) Q) :
    Along source W (require c >>= f) Q := by
  intro p hp hW b r hrun
  obtain ⟨a, q, hfirst, hrest⟩ := bind_some hrun
  rw [Parse.require] at hfirst
  split_ifs at hfirst with hc
  · cases hfirst
    exact hf hc p hp hW b r hrest
  · cases hfirst

/-- A condition at the end. -/
theorem check {c : Bool} {Q : Unit → Place → Prop}
    (h : c = true → ∀ q, q.Sound source → W q → Q () q) : Along source W (Parse.require c) Q := by
  intro p hp hW b q hrun
  rw [Parse.require] at hrun
  split_ifs at hrun with hc
  · cases hrun
    exact h hc p hp hW
  · cases hrun

/-- A program here has no types. -/
theorem typed {f : Bool → Parse β} (hf : Along source W (f false) Q) :
    Along source W (typed >>= f) Q := by
  intro p hp hW b r hrun
  obtain ⟨a, q, hfirst, hrest⟩ := bind_some hrun
  cases hfirst
  rw [hp.untyped] at hrest
  exact hf p hp hW b r hrest

/-- A branch that is never taken. -/
theorem never {c : Bool} {m m' : Parse β} (hc : c = false) (h : Along source W m' Q) :
    Along source W (if c = true then m else m') Q := by
  rw [hc, if_neg Bool.false_ne_true]
  exact h

/-- A branch that is taken always. -/
theorem always {c : Bool} {m m' : Parse β} (hc : c = true) (h : Along source W m Q) :
    Along source W (if c = true then m else m') Q := by
  rw [hc, if_pos rfl]
  exact h

theorem ite {c : Prop} [Decidable c] {m m' : Parse β} (h : c → Along source W m Q)
    (h' : ¬ c → Along source W m' Q) : Along source W (if c then m else m') Q := by
  split_ifs with hc
  · exact h hc
  · exact h' hc

/-- The place where a tree begins. -/
theorem start {f : ℕ → Parse β}
    (hf : ∀ t, t.Sound source → W t → Along source (Eq t) (f t.start) Q) :
    Along source W (start >>= f) Q := by
  intro p hp hW b r hrun
  obtain ⟨a, q, hfirst, hrest⟩ := bind_some hrun
  cases hfirst
  exact hf p hp hW p hp rfl b r hrest

/-- A tree that begins here. -/
theorem here {f : ℕ → Parse β} (hf : Along source (Eq p) (f p.start) Q) :
    Along source (Eq p) (Parse.start >>= f) Q := by
  rintro _ hp rfl b r hrun
  obtain ⟨_, _, hfirst, hrest⟩ := bind_some hrun
  cases hfirst
  exact hf p hp rfl b r hrest

/-- The way that begins at a place. -/
theorem go {m : Parse β} (h : Along source (Way source false p []) m Q) :
    Along source (Eq p) m Q := by
  rintro q hq rfl b r hrun
  exact h p hq (.refl hq) b r hrun

/-- A step on the way whose result shows something for itself. -/
theorem stepOf {P : α → Prop} (hm : Reads source moved' m kids)
    (hP : ∀ p a q, m p = some (a, q) → P a)
    (hf : ∀ a, P a → Along source (Way source (moved || moved') p (nodes ++ kids a)) (f a) Q) :
    Along source (Way source moved p nodes) (m >>= f) Q := by
  intro q hq hW b r hrun
  obtain ⟨a, t, hfirst, hrest⟩ := bind_some hrun
  have hway := hm q q hq rfl a t hfirst
  exact hf a (hP q a t hfirst) t hway.sound (hW.trans hway) b r hrest

/-- **A step on the way.** -/
theorem step (hm : Reads source moved' m kids)
    (hf : ∀ a, Along source (Way source (moved || moved') p (nodes ++ kids a)) (f a) Q) :
    Along source (Way source moved p nodes) (m >>= f) Q :=
  stepOf hm (fun _ _ _ _ => trivial) fun a _ => hf a

/-- A last step. -/
theorem last {m : Parse α} (hm : Reads source moved' m kids) :
    Along source (Way source moved p nodes) m
      fun a q => Way source (moved || moved') p (nodes ++ kids a) q :=
  fun q hq hW a r hrun => hW.trans (hm q q hq rfl a r hrun)

/-- The place itself. -/
theorem place {f : Place → Parse β}
    (hf : ∀ q, q.Sound source → W q → Along source (Eq q) (f q) Q) :
    Along source W (get >>= f) Q := by
  intro p hp hW b r hrun
  obtain ⟨_, _, hfirst, hrest⟩ := bind_some hrun
  cases hfirst
  exact hf p hp hW p hp rfl b r hrest

/-- The token in view. -/
theorem token {f : Token → Parse β} (hf : Along source (Eq p) (f p.token) Q) :
    Along source (Eq p) (Parse.token >>= f) Q := by
  rintro _ hp rfl b r hrun
  obtain ⟨_, _, hfirst, hrest⟩ := bind_some hrun
  cases hfirst
  exact hf p hp rfl b r hrest

/-- What is in view may be read anew. -/
theorem reread {l : ℕ → List Char → Lexeme} {f : Unit → Parse β}
    (hl : ∀ start cs, (l start cs).Extends start cs)
    (hf : Along source (Way source moved p nodes) (f ()) Q) :
    Along source (Way source moved p nodes) (Parse.reread l >>= f) Q := by
  intro q hq hW b r hrun
  obtain ⟨_, _, hfirst, hrest⟩ := bind_some hrun
  cases hfirst
  have hsound := hq.reread (hl q.start q.here)
  exact hf _ hsound ⟨{ hW.toNear with sound := hsound }, hW.ended, hW.passed⟩ b r hrest

/-- A first tree, which opens where the way begins. -/
theorem one {m : Parse Node} {f : Node → Parse β} (hm : ReadsOne source m)
    (hf : ∀ a, a.Opens source p.start → Along source (Way source true p [a]) (f a) Q) :
    Along source (Eq p) (m >>= f) Q := by
  rintro q hq rfl b r hrun
  obtain ⟨a, t, hfirst, hrest⟩ := bind_some hrun
  obtain ⟨hway, hopens⟩ := hm p p hq rfl a t hfirst
  exact hf a hopens t hway.sound hway b r hrest

/-- **A tree takes the place of those right below it.** -/
theorem tree (hmoved : moved = true) (hplain : shape.carries = false)
    (hchildren : shape.children = nodes)
    (hsits : ∀ stop, p.start < stop → Node.Sits source ⟨p.start, stop⟩ shape) :
    Along source (Way source moved p nodes) (tree p.start shape) (One source p) := by
  rintro q hq hW _ _ ⟨⟩
  subst hmoved
  exact hW.tree hplain hchildren hsits

/-- The same, where it does not matter what the tree opens with. -/
theorem node (hmoved : moved = true) (hplain : shape.carries = false)
    (hchildren : shape.children = nodes)
    (hsits : ∀ stop, p.start < stop → Node.Sits source ⟨p.start, stop⟩ shape) :
    Along source (Way source moved p nodes) (Parse.tree p.start shape)
      fun a q => Way source true p [a] q :=
  (tree hmoved hplain hchildren hsits).mono fun _ _ hQ => hQ.way

/-- A tree that reading goes on from. -/
theorem nest {f : Node → Parse β} (hmoved : moved = true) (hplain : shape.carries = false)
    (hchildren : shape.children = nodes)
    (hsits : ∀ stop, p.start < stop → Node.Sits source ⟨p.start, stop⟩ shape)
    (hf : ∀ a, a.Opens source p.start → a.shape = shape →
      Along source (Way source true p [a]) (f a) Q) :
    Along source (Way source moved p nodes) (Parse.tree p.start shape >>= f) Q := by
  intro q hq hW b r hrun
  obtain ⟨a, _, hfirst, hrest⟩ := bind_some hrun
  cases hfirst
  subst hmoved
  have hone := hW.tree hplain hchildren hsits
  exact hf _ hone.opens rfl q hone.way.sound hone.way b r hrest

/-- A tree inside the way that is gone, from place `t` on. -/
theorem close {f : Node → Parse β} (hpt : Way source moved' p more t) (hmoved : moved = true)
    (hplain : shape.carries = false) (hchildren : shape.children = nodes)
    (hsits : ∀ stop, t.start < stop → Node.Sits source ⟨t.start, stop⟩ shape)
    (hf : ∀ a, a.Opens source t.start → a.shape = shape →
      Along source (Way source (moved' || true) p (more ++ [a])) (f a) Q) :
    Along source (Way source moved t nodes) (Parse.tree t.start shape >>= f) Q :=
  nest hmoved hplain hchildren hsits fun a hopens hshape =>
    (hf a hopens hshape).of_imp fun _ hW => hpt.trans hW

end Along

end Parse

end DepBundle.Syntax
