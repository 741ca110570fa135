import DepBundle.Proofs.Syntax.Way
/-!
# Syntax — readers of tokens and of lists

What the readers that all others are made of read: a token that is passed makes
the way longer, one that is looked at does not, and a list of items is read item
by item (`untilDone_reads`, `commaList_near`). Items with commas between them may
be left out, so only the closing mark says that all of them are passed
(`bracketed_reads`).
-/

namespace DepBundle.Syntax.Parse

variable {source : List Char} {p q : Place} {nodes : List Node} {moved : Bool}
  {α β : Type} {m : Parse α} {kids : α → List Node} {w : String}

/-! ## Looking -/

theorem Keeps.bind {f : α → Parse β} (hm : Keeps m) (hf : ∀ a, Keeps (f a)) : Keeps (m >>= f) := by
  intro p b r hrun
  obtain ⟨a, q, hfirst, hrest⟩ := bind_some hrun
  obtain rfl := hm p a q hfirst
  exact hf a _ b r hrest

theorem Keeps.pure (a : α) : Keeps (pure a) := by
  rintro p _ _ ⟨⟩
  rfl

theorem Keeps.ite {c : Prop} [Decidable c] {m' : Parse α} (h : Keeps m) (h' : Keeps m') :
    Keeps (if c then m else m') := by
  split_ifs
  · exact h
  · exact h'

theorem foresee_keeps (m : Parse Bool) : Keeps (foresee m) := by
  intro p b q h
  rw [foresee] at h
  split at h
  all_goals
    cases h
    rfl

theorem get_keeps : Keeps (get : Parse Place) := by
  rintro p _ _ ⟨⟩
  rfl

theorem token_keeps : Keeps token := by
  rintro p _ _ ⟨⟩
  rfl

theorem onNewLine_keeps : Keeps onNewLine := by
  rintro p _ _ ⟨⟩
  rfl

theorem typed_keeps : Keeps typed := by
  rintro p _ _ ⟨⟩
  rfl

theorem atMark_keeps (w : String) : Keeps (atMark w) := token_keeps.bind fun _ => .pure _

theorem atWord_keeps (w : String) : Keeps (atWord w) := token_keeps.bind fun _ => .pure _

theorem follows_keeps (f : Token → Bool) : Keeps (follows f) := foresee_keeps _

theorem followsHere_keeps (f : Token → Bool) : Keeps (followsHere f) := foresee_keeps _

theorem mayEnd_keeps : Keeps mayEnd :=
  token_keeps.bind fun _ => onNewLine_keeps.bind fun _ => .pure _

/-- Whether a reader tells the same wherever there are no types, and only looks. -/
def Tells (source : List Char) (m : Parse α) (a : α) : Prop :=
  ∀ p, Along source (Eq p) m fun b q => b = a ∧ p = q

theorem Along.tells {W : Place → Prop} {Q : β → Place → Prop} {f : α → Parse β} {a : α}
    (hm : Tells source m a) (hf : Along source W (f a) Q) : Along source W (m >>= f) Q := by
  intro p hp hW b r hrun
  obtain ⟨_, _, hfirst, hrest⟩ := bind_some hrun
  obtain ⟨rfl, rfl⟩ := hm p p hp rfl _ _ hfirst
  exact hf p hp hW b r hrest

theorem Tells.pure (a : α) : Tells source (pure a) a := fun _ => .pure fun _ _ hW => ⟨rfl, hW⟩

/-! ## Passing -/

theorem advance_along : Along source (Eq p) advance
    fun _ q => Way source true p [] q ∧ q.last = p.stop := by
  rintro _ hp rfl ⟨⟩ q hrun
  obtain ⟨_, _, hget, hrun⟩ := bind_some hrun
  cases hget
  obtain ⟨_, r, hrequire, hset⟩ := bind_some hrun
  rw [Parse.require] at hrequire
  split_ifs at hrequire with hreal
  · cases hrequire
    cases hset
    have hview := hp.view.reaches
    obtain ⟨hsound, hlast⟩ := next_sound hp.untyped hp.plain (hp.here.trans hview)
    have hpos := hp.view.pos (by simpa [Token.IsReal] using hreal)
    have hle := hsound.last_le
    have hbefore := hp.last_le
    dsimp only at hpos
    exact ⟨⟨⟨hsound, by omega, by omega, by simp, List.Pairwise.nil, by simp⟩, by simp,
      fun _ => by omega⟩, hlast⟩
  · cases hrequire

theorem advance_reads (source : List Char) : Reads source true advance fun _ => [] :=
  fun _ => advance_along.mono fun _ _ hQ => hQ.1

/-- Passing what is in view where it is, and saying so. -/
theorem eat_moves {look : Parse Bool} (hlook : Keeps look) :
    Along source (Eq p) (do if ← look then advance; return true else return false)
      fun b q => Way source b p [] q := by
  refine .look hlook fun b => .ite (fun _ => ?_) fun _ => ?_
  · refine .go <| .step (advance_reads source) fun _ => .pure fun q _ hW => hW
  · exact .pure fun q hq hW => hW.symm ▸ .refl hq

theorem eatMark_moves (w : String) :
    Along source (Eq p) (eatMark w) fun b q => Way source b p [] q := eat_moves (atMark_keeps w)

theorem eatWord_moves (w : String) :
    Along source (Eq p) (eatWord w) fun b q => Way source b p [] q := eat_moves (atWord_keeps w)

theorem eatMark_reads (source : List Char) (w : String) :
    Reads source false (eatMark w) fun _ => [] :=
  fun _ => (eatMark_moves w).mono fun _ _ hQ => hQ.forget

theorem eatWord_reads (source : List Char) (w : String) :
    Reads source false (eatWord w) fun _ => [] :=
  fun _ => (eatWord_moves w).mono fun _ _ hQ => hQ.forget

theorem expect_reads {look : Parse Bool} (hlook : ∀ p, Along source (Eq p) look
    fun b q => Way source b p [] q) :
    Reads source true (do require (← look)) fun _ => [] :=
  fun p => (hlook p).bind (fun _ _ h => h.sound) fun _ => .check fun hb _ _ hW => hb ▸ hW

theorem expectMark_reads (source : List Char) (w : String) :
    Reads source true (expectMark w) fun _ => [] := expect_reads fun _ => eatMark_moves w

theorem expectWord_reads (source : List Char) (w : String) :
    Reads source true (expectWord w) fun _ => [] := expect_reads fun _ => eatWord_moves w

/-- A word that has to be there is in view, and the way is gone to where it ends. -/
theorem expectWord_along (w : String) : Along source (Eq p) (expectWord w)
    fun _ q => Way source true p [] q ∧ p.token = .word w false ∧ q.last = p.stop := by
  rintro _ hp rfl _ q hrun
  have hway := expectWord_reads source w p p hp rfl _ q hrun
  obtain ⟨b, _, heat, hrequire⟩ := bind_some hrun
  obtain ⟨b', _, hlook, heat⟩ := bind_some heat
  cases hlook
  split_ifs at heat with hword
  · obtain ⟨_, _, hadvance, hpure⟩ := bind_some heat
    cases hpure
    cases hrequire
    exact ⟨hway, eq_of_beq hword, (advance_along p hp rfl _ _ hadvance).2⟩
  · cases heat
    cases hrequire

theorem semicolon_reads (source : List Char) : Reads source false semicolon fun _ => [] := by
  intro p
  refine .go <| .step (eatMark_reads source _) fun b => ?_
  split
  · exact .pure fun q _ hW => hW
  · exact .look token_keeps fun _ => .look onNewLine_keeps fun _ => .check fun _ q _ hW => hW

/-! ## Reading in other surroundings, and trying -/

/-- What is noted about a place changes nothing about the way. -/
theorem modify_reads {change : Place → Place} (h : ∀ p : Place, p.Same (change p)) :
    Reads source false (modify change) fun _ => [] := by
  rintro p _ hp rfl _ _ ⟨⟩
  exact (Way.refl hp).same (h p)

/-- What is read in other surroundings is read from the same place, but for what is
noted about it. -/
theorem exists_of_within {change : Context → Context} {a : α} (h : within change m p =
    some (a, q)) :
    ∃ p' q', p.Same p' ∧ m p' = some (a, q') ∧ q'.Same q := by
  obtain ⟨_, _, hget, h⟩ := bind_some h
  cases hget
  obtain ⟨_, _, hmodify, h⟩ := bind_some h
  cases hmodify
  obtain ⟨a, q', hm, h⟩ := bind_some h
  obtain ⟨_, _, hmodify, hpure⟩ := bind_some h
  cases hmodify
  cases hpure
  exact ⟨{ p with context := change p.context }, q', ⟨rfl, rfl, rfl, rfl, rfl, rfl, rfl⟩, hm,
    rfl, rfl, rfl, rfl, rfl, rfl, rfl⟩

theorem Along.within {change : Context → Context} {Q : α → Place → Prop}
    (hm : ∀ p', p.Same p' → Along source (Eq p') m Q)
    (hQ : ∀ a q q', Q a q → q.Same q' → Q a q') : Along source (Eq p) (within change m) Q := by
  rintro _ hp rfl a q hrun
  obtain ⟨p', q', hp', hm', hq⟩ := exists_of_within hrun
  exact hQ a q' q (hm p' hp' p' (hp.of_same hp') rfl a q' hm') hq

/-- **Other surroundings** change nothing about the way. -/
theorem within_reads {change : Context → Context} (hm : Reads source moved m kids) :
    Reads source moved (within change m) kids := by
  rintro p _ hp rfl a q hrun
  obtain ⟨p', q', hp', hm', hq⟩ := exists_of_within hrun
  exact ((hm p' p' (hp.of_same hp') rfl a q' hm').of_same hp').same hq

theorem within_readsOne {m : Parse Node} {change : Context → Context} (hm : ReadsOne source m) :
    ReadsOne source (within change m) := by
  rintro p _ hp rfl a q hrun
  obtain ⟨p', q', hp', hm', hq⟩ := exists_of_within hrun
  exact ((hm p' p' (hp.of_same hp') rfl a q' hm').of_same hp').same hq

theorem ReadsOne.reads {m : Parse Node} (h : ReadsOne source m) :
    Reads source true m fun a => [a] :=
  fun p => (h p).mono fun _ _ hQ => hQ.way

/-- What may not be read leaves the place as it is. -/
theorem Along.attempt {Q : α → Place → Prop} {R : β → Place → Prop} {f : Option α → Parse β}
    (hm : Along source (Eq p) m Q) (hQ : ∀ a q, Q a q → q.Sound source)
    (hsome : ∀ a, Along source (Q a) (f (some a)) R) (hnone : Along source (Eq p) (f none) R) :
    Along source (Eq p) (attempt m >>= f) R := by
  rintro _ hp rfl b r hrun
  obtain ⟨o, q, hfirst, hrest⟩ := bind_some hrun
  rw [Parse.attempt] at hfirst
  split at hfirst
  · rename_i a q hread
    cases hfirst
    have ha := hm p hp rfl a q hread
    exact hsome a q (hQ a q ha) ha b r hrest
  · cases hfirst
    exact hnone p hp rfl b r hrest

theorem attempt_reads (hm : Reads source moved m kids) :
    Reads source false (attempt m) fun o => o.elim [] kids := by
  rintro p _ hp rfl o q hrun
  rw [Parse.attempt] at hrun
  split at hrun
  · rename_i a q hread
    cases hrun
    exact (hm p p hp rfl a q hread).forget
  · cases hrun
    exact .refl hp

/-- The same, where there are no trees on the way. -/
theorem attempt_passes (hm : Reads source false m fun _ => []) :
    Reads source false (attempt m) fun _ => [] :=
  fun p => (attempt_reads hm p).mono fun o _ hQ => by cases o <;> exact hQ

theorem map_reads {f : α → β} {kids' : β → List Node} (hm : Reads source moved m kids)
    (hkids : ∀ a, kids' (f a) = kids a) : Reads source moved (f <$> m) kids' := by
  intro p
  rw [map_eq_pure_bind]
  refine (hm p).bind (fun _ _ h => h.sound) fun a => .pure fun q _ hW => ?_
  rw [hkids]
  exact hW

theorem some_reads {m : Parse Node} (hm : Reads source moved m fun a => [a]) :
    Reads source moved (some <$> m) Option.toList := map_reads hm fun _ => rfl

/-- **A loop over given items** that may be left early. -/
theorem Along.loop {σ : Type} {items : List α} {f : α → σ → Parse (ForInStep σ)} {s : σ}
    {W : Place → Prop} {I R : σ → Place → Prop} (hW : ∀ q, W q → I s q)
    (hI : ∀ s q, I s q → q.Sound source) (hR : ∀ s q, R s q → q.Sound source)
    (hf : ∀ a s, Along source (I s) (f a s) fun r q =>
      match r with
      | .done s => R s q
      | .yield s => I s q)
    (hend : ∀ s q, I s q → R s q) : Along source W (forIn items s f) R := by
  refine .of_imp ?_ hW
  clear hW
  induction items generalizing s with
  | nil => exact .pure fun q _ hs => hend s q hs
  | cons a items ih =>
    rw [List.forIn_cons]
    refine .bind (hf a s) (fun r q hr => ?_) fun r => ?_
    · cases r with
      | done s => exact hR s q hr
      | yield s => exact hI s q hr
    · cases r with
      | done s => exact .pure fun q _ hr => hr
      | yield s => exact ih

/-! ## Lists -/

theorem untilDone_go_reads {done : Parse Bool} (hdone : Keeps done)
    (hm : Reads source moved m kids) (n : ℕ) :
    Reads source false (untilDone.go done m n) fun items => items.flatMap kids := by
  induction n with
  | zero => exact fun p => .refuse
  | succ n ih =>
    intro p
    rw [untilDone.go]
    refine .look hdone fun b => .ite (fun _ => ?_) fun _ => ?_
    · exact .pure fun q hq hW => hW.symm ▸ .refl hq
    · refine .go <| .step hm fun a => .step ih fun items => .pure fun q _ hW => ?_
      exact hW.forget

/-- **Items are read one after another.** -/
theorem untilDone_reads {done : Parse Bool} (hdone : Keeps done) (hm : Reads source moved m kids) :
    Reads source false (untilDone done m) fun items => items.flatMap kids :=
  fun p => .look get_keeps fun place => untilDone_go_reads hdone hm place.limit p

theorem untilDone_go_forall {done : Parse Bool} {P : α → Prop}
    (hm : ∀ p a q, m p = some (a, q) → P a) {items : List α} {n : ℕ}
    (h : untilDone.go done m n p = some (items, q)) : ∀ a ∈ items, P a := by
  induction n generalizing p items with
  | zero => cases h
  | succ n ih =>
    obtain ⟨b, r, -, h⟩ := bind_some h
    split_ifs at h with hb
    · cases h
      simp
    · obtain ⟨a, t, ha, h⟩ := bind_some h
      obtain ⟨as, u, has, h⟩ := bind_some h
      cases h
      exact List.forall_mem_cons.2 ⟨hm r a t ha, ih has⟩

/-- What every item is, all items are. -/
theorem untilDone_forall {done : Parse Bool} {P : α → Prop}
    (hm : ∀ p a q, m p = some (a, q) → P a) {items : List α}
    (h : untilDone done m p = some (items, q)) : ∀ a ∈ items, P a := by
  obtain ⟨place, p, -, h⟩ := bind_some h
  exact untilDone_go_forall hm h

/-- Where there is nothing to read the place is left as it is. -/
theorem untilDone_of_done {done : Parse Bool} (hdone : done p = some (true, p)) {items : List α}
    (h : untilDone done m p = some (items, q)) : items = [] ∧ p = q := by
  obtain ⟨place, _, hget, h⟩ := bind_some h
  cases hget
  generalize p.limit = n at h
  cases n with
  | zero => cases h
  | succ n =>
    obtain ⟨b, r, hb, h⟩ := bind_some h
    cases hdone.symm.trans hb
    cases h
    exact ⟨rfl, rfl⟩

theorem commaList_go_near {close : Parse Bool} (hclose : Keeps close)
    (hm : ∀ p, Along source (Eq p) m fun a q => Near source p (kids a) q) (n : ℕ) (p : Place) :
    Along source (Eq p) (commaList.go close m n) fun r q => Near source p (r.1.flatMap kids) q := by
  induction n generalizing p with
  | zero => exact .refuse
  | succ n ih =>
    rw [commaList.go]
    refine .look hclose fun _ => .ite (fun _ => ?_) fun _ => ?_
    · exact .pure fun q hq hW => hW.symm ▸ .refl hq
    refine (hm p).bind (fun _ _ h => h.sound) fun a => .each fun q _ hitem => ?_
    have hone : Near source p ([a].flatMap kids) q := by simpa using hitem
    refine (eatMark_moves ",").bind (fun _ _ h => h.sound) fun comma => .ite (fun hcomma => ?_)
      fun hcomma => ?_
    · -- the item ends before the comma, so what follows stands behind it
      subst hcomma
      refine .look hclose fun _ => .ite (fun _ => ?_) fun _ => .each fun r _ hway => ?_
      · exact .pure fun r _ hway => (hone.pass hway).toNear
      · refine (ih r).bind (fun _ _ h => h.sound) fun (as, _) => .pure fun _ _ hmore => ?_
        exact (hitem.pass hway).toNear.trans hmore
    · rw [Bool.not_eq_true] at hcomma
      subst hcomma
      refine .look hclose fun _ => .require fun _ => .pure fun r _ hway => ?_
      simpa using hone.trans hway.toNear

/-- **Items with commas between them** are read one after another; the last one may
stand where the token in view does. -/
theorem commaList_near {close : Parse Bool} (hclose : Keeps close)
    (hm : ∀ p, Along source (Eq p) m fun a q => Near source p (kids a) q) (p : Place) :
    Along source (Eq p) (commaList close m) fun r q => Near source p (r.1.flatMap kids) q :=
  .look get_keeps fun place => commaList_go_near hclose hm place.limit p

/-- **Items in brackets.** -/
theorem bracketed_reads {opening closing : String}
    (hm : ∀ p, Along source (Eq p) m fun a q => Near source p (kids a) q) :
    Reads source true (bracketed opening closing m) fun r => r.1.flatMap kids := by
  intro p
  refine (expectMark_reads source opening p).bind (fun _ _ h => h.sound) fun _ =>
    .each fun q _ hopen => ?_
  refine (commaList_near (atMark_keeps closing) hm q).bind (fun _ _ h => h.sound) fun r =>
    .each fun t _ hitems => ?_
  refine (expectMark_reads source closing t).bind (fun _ _ h => h.sound) fun _ =>
    .pure fun u _ hclose => ?_
  exact hopen.trans (hitems.pass hclose)

theorem Reads.near {m : Parse α} (hm : Reads source moved m kids) (p : Place) :
    Along source (Eq p) m fun a q => Near source p (kids a) q :=
  (hm p).mono fun _ _ h => h.toNear

end DepBundle.Syntax.Parse
