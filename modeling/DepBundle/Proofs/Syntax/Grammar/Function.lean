import DepBundle.Proofs.Syntax.Grammar.Name
import DepBundle.Syntax.Grammar.Class
/-!
# Grammar — functions and classes lie in their text

A function reads one tree that opens where it begins (`function_readsOne`), and
its parameters begin where they stand. A class is begun by its keyword or by the
first of its decorators, and where it is exported its decorators may stand in
front of the `export`; so its rest is read behind decorators that may begin
elsewhere (`classRest_along`).
-/

namespace DepBundle.Syntax.Grammar

open Parse

variable {source : List Char} {p q t : Place} {nodes : List Node} {moved moved' : Bool}
  {sub : Grammar}

/-! ## Decorators -/

theorem decorator_reads (h : sub.ReadsTrees source) : Reads source true (do
    let s ← start
    expectMark "@"
    let value ← within (fun c => { c with isDecorator := true }) (sub .leftHand)
    tree s (.decorator value)) fun a => [a] :=
  fun _ => .here <| .go <| .step (expectMark_reads source "@") fun _ =>
    .step (within_reads h.leftHand.reads) fun _ => .node rfl rfl rfl fun _ _ => trivial

/-- **Decorators** are trees that nothing is carried in front of. Where there are
some, the mark of the first one is in view. -/
structure AreDecorators (p : Place) (items : List Node) (q : Place) : Prop where
  plain : ∀ c ∈ items, c.shape.carries = false
  none_or_at : (items = [] ∧ p = q) ∨ p.token = .mark "@"

theorem decorators_along (h : sub.ReadsTrees source) : Along source (Eq p) (decorators sub)
    fun items q => Way source false p items q ∧ AreDecorators p items q := by
  rintro _ hp rfl items q hrun
  have hdone : Keeps (do return !(← atMark "@")) := (atMark_keeps "@").bind fun _ => .pure _
  have hway := untilDone_reads hdone (decorator_reads h) p p hp rfl items q hrun
  refine ⟨by simpa using hway, ⟨fun c hc => ?_, ?_⟩⟩
  · refine untilDone_forall (P := fun c => c.shape.carries = false)
      (fun p a q hitem => ?_) hrun c hc
    obtain ⟨s, _, -, hitem⟩ := bind_some hitem
    obtain ⟨_, _, -, hitem⟩ := bind_some hitem
    obtain ⟨_, _, -, htree⟩ := bind_some hitem
    cases htree
    rfl
  · by_cases hat : p.token = .mark "@"
    · exact Or.inr hat
    · have hlook : (do return !(← atMark "@") : Parse Bool) p = some (true, p) := by
        change some (!(p.token == .mark "@"), p) = _
        simp [hat]
      exact Or.inl (untilDone_of_done hlook hrun)

/-! ## Functions -/

theorem param_reads (h : sub.ReadsTrees source) : Reads source true (param sub) fun a => [a] := by
  intro p
  refine .here <| .bind (decorators_along h) (fun _ _ hQ => hQ.1.sound) fun ds => ?_
  refine .of_imp ?_ fun _ hQ => hQ.1
  refine .typed <| .look (atWord_keeps "this") fun _ => .never rfl <| .typed <| .never rfl <|
    .look (.pure false) fun assigns => .start fun t ht hpt => ?_
  refine .go <| .step (eatMark_reads source "...") fun _ => .ite (fun _ => ?_) fun _ => ?_
  · refine .start fun u _ htu => .go <| .step h.pattern.reads fun target =>
      .tells (annotated_tells _ _) <| .of_imp ?_ fun q hW => htu.trans hW
    refine .close hpt rfl rfl rfl (fun _ _ => trivial) fun rest _ _ => ?_
    refine .look (atMark_keeps ")") fun _ => .require fun _ => .node rfl rfl rfl fun _ _ => trivial
  · refine .step h.pattern.reads fun target => .typed <| .never rfl <|
      .tells (annotated_tells _ _) ?_
    refine .bind (withDefault_along h) (fun _ _ hQ => hQ.sound) fun target => ?_
    refine .of_imp ?_ fun q hW => hpt.trans hW
    exact .node rfl rfl rfl fun _ _ => trivial

theorem params_readsOne (h : sub.ReadsTrees source) : ReadsOne source (params sub) := by
  refine fun p => .here <| .go <| .step (within_reads (bracketed_reads (param_reads h).near))
    fun items => ?_
  exact .tree rfl rfl (by simp [Shape.children]) fun _ _ => trivial

theorem statements_go_reads (h : sub.ReadsTrees source) {done : Parse Bool} (hdone : Keeps done)
    (n : ℕ) (directives : Bool) :
    Reads source false (statements.go sub done n directives) fun items => items := by
  induction n generalizing directives with
  | zero => exact fun p => .refuse
  | succ n ih =>
    intro p
    rw [statements.go]
    refine .look hdone fun _ => .ite (fun _ => ?_) fun _ => ?_
    · exact .pure fun q hq hW => by subst hW; exact .refl hq
    have hmore : ∀ (a : Node) directives, Along source (Way source true p [a])
        (do return a :: (← statements.go sub done n directives))
        fun items q => Way source false p items q := fun a directives =>
      .step (ih directives) fun items => .pure fun q _ hW => hW.forget
    refine .go <| .look token_keeps fun t => .step (h.statement false) fun a => ?_
    split
    · refine .ite (fun _ => ?_) fun _ => hmore _ _
      -- a directive stands where the string does
      exact (hmore ⟨a.span, _⟩ true).of_imp fun q hW => hW.relabel rfl rfl trivial
    · exact hmore _ _

theorem statements_reads (h : sub.ReadsTrees source) {done : Parse Bool} (hdone : Keeps done) :
    Reads source false (statements sub done) fun items => items :=
  fun p => .look get_keeps fun place => statements_go_reads h hdone place.limit true p

theorem functionBody_readsOne (h : sub.ReadsTrees source) (isAsync isGenerator : Bool) :
    ReadsOne source (functionBody sub isAsync isGenerator) := by
  refine fun p => .here <| .within (fun p' hp' => ?_) fun _ _ _ hQ hq => hQ.same hq
  rw [← hp'.start]
  refine Along.mono (R := One source p') ?_ fun _ _ hQ => hQ.of_same hp'
  refine .go <| .step (expectMark_reads source _) fun _ =>
    .step (statements_reads h (atMark_keeps _)) fun items =>
    .step (expectMark_reads source _) fun _ => ?_
  exact .tree rfl rfl (by simp [Shape.children]) fun _ _ => trivial

/-- **A function from its parameters on**, begun by a name if it has one. -/
theorem functionRest_along (h : sub.ReadsTrees source) (flags : FunctionFlags)
    (name : Option Node) :
    Along source (Way source moved p name.toList) (functionRest sub flags p.start name)
      (One source p) := by
  rw [functionRest]
  refine .tells typeParams_tells <| .each fun t _ hpt => ?_
  refine (within_readsOne (params_readsOne h) t).bind (fun _ _ hQ => hQ.way.sound) fun params => ?_
  refine .each fun q _ hparams => ?_
  have hW := hpt.trans hparams.way
  refine .tells resultAnnotation_tells <| .typed <| .look (atMark_keeps _) fun _ => .never rfl <|
    .of_imp ?_ fun r (hr : q = r) => hr ▸ hW
  refine .step (functionBody_readsOne h _ _).reads fun body => ?_
  exact .tree (Bool.or_true _) rfl (by simp [Shape.children]) fun _ _ => ⟨rfl, hparams.begins_eq⟩

theorem atFunction_keeps : Keeps atFunction :=
  (atWord_keeps _).bind fun _ => .ite (.pure _) <| (atWord_keeps _).bind fun _ =>
    (followsHere_keeps _).bind fun _ => .pure _

theorem function_readsOne (h : sub.ReadsTrees source) (role : FunctionRole) (nameless : Bool) :
    ReadsOne source (function sub role nameless) := by
  refine fun p => .here <| .go <| .step (eatWord_reads source _) fun isAsync =>
    .step (expectWord_reads source _) fun _ => .step (eatMark_reads source _) fun isGenerator =>
      .look token_keeps fun t => ?_
  refine .ite (fun _ => ?_) fun _ => ?_
  · exact .step (some_reads (within_reads bindingName_readsOne.reads)) fun name => .require fun _ =>
      functionRest_along h _ name
  · exact .value <| .require fun _ => functionRest_along h _ none

theorem arrowBody_reads (h : sub.ReadsTrees source) (isAsync : Bool) :
    Reads source true (arrowBody sub isAsync) fun a => [a] :=
  fun p => .look (atMark_keeps _) fun _ => .ite (fun _ => (functionBody_readsOne h _ _).reads p)
    fun _ => within_reads h.assignment.reads p

theorem arrowRest_reads (h : sub.ReadsTrees source) (isAsync : Bool) :
    Reads source true (arrowRest sub isAsync) fun a => [a] :=
  fun _ => .look onNewLine_keeps fun _ => .require fun _ => .go <|
    .step (expectMark_reads source _) fun _ => .last (arrowBody_reads h isAsync)

theorem simpleArrow_readsOne (h : sub.ReadsTrees source) : ReadsOne source (simpleArrow sub) := by
  refine fun p => .here <| .look (atWord_keeps _) fun _ => .look (followsHere_keeps _) fun _ => ?_
  refine .ite (fun _ => .go <| .step (advance_reads source) fun _ => .value ?_)
    fun _ => .go <| .value ?_
  all_goals
    refine .start fun t _ hpt => .go <|
      .step (within_reads bindingName_readsOne.reads) fun name => ?_
    refine .nest rfl rfl rfl (fun _ _ => trivial) fun param _ _ => ?_
    refine .close hpt rfl rfl rfl (fun _ _ => trivial) fun params _ _ => ?_
    refine .step (arrowRest_reads h _) fun body => ?_
    exact .tree rfl rfl rfl fun _ _ => trivial

theorem arrow_readsOne (h : sub.ReadsTrees source) : ReadsOne source (arrow sub) := by
  refine fun p => .here <| .look (atWord_keeps _) fun _ => .look (followsHere_keeps _) fun _ => ?_
  refine .ite (fun _ => .go <| .step (advance_reads source) fun _ => .value ?_)
    fun _ => .go <| .value ?_
  all_goals
    refine .tells typeParams_tells <|
      .step (within_reads (params_readsOne h).reads) fun params => ?_
    refine .look get_keeps fun place =>
      .ite (fun _ => .tells resultAnnotation_tells ?_) fun _ => .value ?_
    all_goals
      refine .step (arrowRest_reads h _) fun body => ?_
      exact .tree rfl rfl rfl fun _ _ => trivial

/-! ## Classes -/

theorem methodFunction_reads (h : sub.ReadsTrees source) (role : MethodRole)
    (isAsync isGenerator : Bool) :
    Reads source true (methodFunction sub role isAsync isGenerator) fun a => [a] := by
  refine fun p => .here <| .go ?_
  refine .bind (functionRest_along h _ none) (fun _ _ hQ => hQ.way.sound) fun value => ?_
  exact .require fun _ => .pure fun q _ hQ => hQ.way

theorem memberHead_go_reads (n : ℕ) (head : MemberHead) :
    Reads source false (memberHead.go n head) fun _ => [] := by
  induction n generalizing head with
  | zero => exact fun p => .pure fun q hq hW => by subst hW; exact .refl hq
  | succ n ih =>
    intro p
    have hstop : Along source (Eq p) (pure head : Parse MemberHead)
        fun _ q => Way source false p [] q := .pure fun q hq hW => by subst hW; exact .refl hq
    have hmore : ∀ head, Along source (Eq p) (do advance; memberHead.go n head)
        fun _ q => Way source false p [] q := fun head =>
      (Along.go <| .step (advance_reads source) fun _ => .last (ih head)).mono fun _ _ hQ =>
      hQ.forget
    have hend : ∀ head, Along source (Eq p) (do advance; return head : Parse MemberHead)
        fun _ q => Way source false p [] q := fun head =>
      .go <| .step (advance_reads source) fun _ => .pure fun _ _ hW => hW.forget
    rw [memberHead.go]
    refine .look token_keeps fun t => ?_
    split
    · exact .look (follows_keeps _) fun _ => .ite (fun _ => hmore _) fun _ => hstop
    · exact .look (followsHere_keeps _) fun _ => .ite (fun _ => hmore _) fun _ => hstop
    · exact .look (followsHere_keeps _) fun _ => .ite (fun _ => hend _) fun _ => hstop
    · exact .look (follows_keeps _) fun _ => .ite (fun _ => hend _) fun _ => hstop
    · exact .look (follows_keeps _) fun _ => .ite (fun _ => hend _) fun _ => hstop
    · exact .typed <| .look (followsHere_keeps _) fun _ => .ite (fun _ => hmore _) fun _ => hstop
    · exact hstop

theorem memberHead_reads : Reads source false memberHead fun _ => [] :=
  memberHead_go_reads 8 {}

theorem member_reads (h : sub.ReadsTrees source) : Reads source true (member sub) fun a => [a] := by
  refine fun p => .here ?_
  refine .bind (decorators_along h) (fun _ _ hQ => hQ.1.sound) fun ds => ?_
  refine .of_imp ?_ fun _ hQ => hQ.1
  refine .look (atWord_keeps _) fun _ => .look (follows_keeps _) fun _ =>
    .ite (fun _ => ?_) fun _ => ?_
  · -- nothing is decorated here
    refine .of_imp ?_ fun _ hW => hW.sublist (List.nil_sublist ds)
    refine .step (advance_reads source) fun _ => .step (expectMark_reads source _) fun _ =>
      .step (within_reads (untilDone_reads (atMark_keeps _) (h.statement false))) fun items =>
        .step (expectMark_reads source _) fun _ => ?_
    exact .node rfl rfl (by simp [Shape.children]) fun _ _ => trivial
  · refine .step memberHead_reads fun head => .typed <| .never rfl ?_
    refine .step (eatMark_reads source _) fun _ => .step (memberKey_reads h) fun key =>
      .require fun _ =>
      .typed <| .never rfl <| .look (atMark_keeps _) fun _ => .typed <|
      .look (atMark_keeps _) fun _ =>
        .ite (fun _ => ?_) fun _ => ?_
    · refine .require fun _ => .step (methodFunction_reads h _ _ _) fun value => ?_
      exact .node (by simp) rfl (by simp [Shape.children]) fun _ _ => trivial
    · refine .require fun _ => .tells annotation_tells <| .step (eatMark_reads source _) fun _ =>
        .ite (fun _ => .step (some_reads (within_reads h.assignment.reads)) fun value => ?_)
          fun _ => .value ?_
      all_goals
        refine .step (semicolon_reads source) fun _ => ?_
        exact .node (by simp) rfl (by simp [Shape.children]) fun _ _ => trivial

theorem members_reads (h : sub.ReadsTrees source) :
    Reads source true (members sub) fun items => items := by
  have hitem : Reads source false (do
      if ← eatMark ";" then return none else some <$> member sub) Option.toList := by
    refine fun p => .go <| .step (eatMark_reads source _) fun _ => .ite (fun _ => ?_) fun _ => ?_
    · exact .pure fun q _ hW => hW
    · exact (Along.last (some_reads (member_reads h))).mono fun _ _ hQ => hQ.forget
  refine fun p => .go <| .step (expectMark_reads source _) fun _ =>
    .step (untilDone_reads (atMark_keeps _) hitem) fun items =>
    .step (expectMark_reads source _) fun _ =>
      .pure fun q _ hW => ?_
  have hflat : items.flatMap Option.toList = items.filterMap id := by
    rw [List.filterMap_eq_flatMap_toList]
    rfl
  simpa [hflat] using hW

theorem parentClass_reads (h : sub.ReadsTrees source) :
    Reads source true (parentClass sub) fun a => [a] :=
  fun _ => .here <| .go <| .step h.leftHand.reads fun _ => .typed <| .look (atMark_keeps _) fun _ =>
    .look (atMark_keeps _) fun _ => .never rfl <| .pure fun _ _ hW => hW

/-- **A class that is read**, with its decorators: it begins at `s`, and what is in it
besides the decorators stands after its keyword. -/
structure IsClass (source : List Char) (s : ℕ) (decorated : List Node) (a : Node) : Prop where
  decorators_eq : a.decorators = decorated
  carried_eq : a.carried = decorated
  start_eq : a.span.start = s
  opening_le : a.opening source ≤ a.span.stop
  front : ∀ c ∈ a.children, c ∈ decorated ∨ a.opening source ≤ c.begins

/-- A class in the place of its decorators and of what follows its keyword. -/
theorem way_of_class {u : Place} {decorated items : List Node} {name parent : Option Node} {s : ℕ}
    (flags : ClassFlags) (hway : Way source moved p decorated t)
    (hplain : ∀ c ∈ decorated, c.shape.carries = false) (hps : p.start ≤ s) (hst : s ≤ t.start)
    (hs : s = t.start ∨ Text.after? "class".toList (source.drop s) = none)
    (hkeyword : Way source true t [] u) (hlast : t.start + 5 ≤ u.last)
    (hparts : Way source moved' u (name.toList ++ parent.toList ++ items) q) :
    Way source true p [⟨⟨s, q.last⟩, .classDef flags decorated name none parent [] items⟩] q ∧
      IsClass source s decorated
        ⟨⟨s, q.last⟩, .classDef flags decorated name none parent [] items⟩ := by
  have hall := (hway.trans hkeyword).trans hparts
  have hend := hparts.last_le
  have hbetween := hkeyword.sound.last_le
  generalize hclass : Shape.classDef flags decorated name none parent [] items = shape
  have hchildren : shape.children = decorated ++ [] ++ (name.toList ++ parent.toList ++ items) := by
    simp [← hclass, Shape.children]
  have hcarried : (Node.mk ⟨s, q.last⟩ shape).carried = decorated := by
    rw [← hclass]
    rfl
  -- the class opens behind its keyword, or where it begins if that is not its keyword
  have hopening : (Node.mk ⟨s, q.last⟩ shape).opening source ≤ u.last := by
    rcases hs with rfl | hnone
    · exact Nat.le_trans (Node.opening_le _ _) hlast
    · have hstart : (Node.mk ⟨s, q.last⟩ shape).opening source = s := Node.opening_of_none hnone
      omega
  have hdecorated : ∀ c ∈ decorated, (Node.mk ⟨s, q.last⟩ shape).begins ≤ c.begins := fun c hc => by
    rw [Node.begins_of_not_carries (hplain c hc)]
    exact Node.begins_le_of_mem_carried (hcarried ▸ hc)
  have hbegins : (Node.mk ⟨s, q.last⟩ shape).begins ≤ s := Node.begins_le_start _
  have hafter : ∀ c ∈ name.toList ++ parent.toList ++ items, u.last ≤ c.begins := fun c hc =>
    Nat.le_trans hbetween (hparts.inside c hc).1
  have hinside : ∀ c ∈ shape.children, c ∈ decorated ∨ u.last ≤ c.begins := fun c hc => by
    rw [hchildren, List.append_nil] at hc
    exact (List.mem_append.1 hc).imp_right (hafter c)
  have hlies : (Node.mk ⟨s, q.last⟩ shape).Lies source := by
    refine .mk ⟨?_, hchildren ▸ hall.row, fun c hc => ⟨?_, ?_⟩, hclass ▸ trivial⟩ fun c hc => ?_
    · dsimp only
      omega
    · rcases hinside c hc with hc | hc
      · exact hdecorated c hc
      · omega
    · exact hall.ended c (hchildren ▸ hc)
    · exact hall.lies c (hchildren ▸ hc)
  have hfrom : p.start ≤ (Node.mk ⟨s, q.last⟩ shape).begins := by
    refine Node.le_begins hps fun c hc => ?_
    rw [hcarried] at hc
    exact Nat.le_trans (hway.inside c hc).1 c.begins_le_start
  have hfold := hall.fold hlies hfrom (Nat.le_refl _)
  refine ⟨⟨hfold.toNear, hfold.ended, fun _ => hfold.passed (by simp)⟩, ⟨?_, ?_, rfl, ?_,
    fun c hc => ?_⟩⟩
  · rw [← hclass]
    rfl
  · rw [← hclass]
    rfl
  · exact Nat.le_trans hopening hend
  · exact (hinside c hc).imp_right fun hc => Nat.le_trans hopening hc

/-- **A class from its keyword on.** It begins there, or where the first of its
decorators does. -/
theorem classRest_along (h : sub.ReadsTrees source) {decorated : List Node} {s : ℕ}
    (hway : Way source moved p decorated t) (hplain : ∀ c ∈ decorated, c.shape.carries = false)
    (hps : p.start ≤ s) (hst : s ≤ t.start)
    (hs : s = t.start ∨ Text.after? "class".toList (source.drop s) = none) (flags : ClassFlags)
    (nameless : Bool) : Along source (Eq t) (classRest sub s flags nameless decorated)
      fun a q => Way source true p [a] q ∧ IsClass source s decorated a := by
  rw [classRest]
  refine (expectWord_along "class").bind (fun _ _ hQ => hQ.1.sound) fun _ => .each fun u _ hu => ?_
  obtain ⟨hkeyword, hword, hlast⟩ := hu
  have hlast : t.start + 5 ≤ u.last := by
    rw [hlast, hway.sound.stop_eq (hword ▸ rfl : t.token.spelled? = some "class")]
    exact Nat.le_refl _
  refine .go <| .look token_keeps fun _ => .look (atWord_keeps _) fun _ => ?_
  refine .ite (fun _ => .step (some_reads bindingName_readsOne.reads) fun name => ?_)
    fun _ => .value ?_
  all_goals
    refine .require fun _ => .tells typeParams_tells <| .step (eatWord_reads source _) fun _ =>
      .ite (fun _ => .step (some_reads (parentClass_reads h)) fun parent => ?_) fun _ => .value ?_
  all_goals
    refine .typed <| .look (atWord_keeps _) fun _ => .never rfl <| .value <|
      .step (within_reads (members_reads h)) fun items => ?_
    rintro q _ hparts _ _ ⟨⟩
    exact way_of_class flags hway hplain hps hst hs hkeyword hlast (by simpa using hparts)

theorem IsClass.opens {decorated : List Node} {a : Node} {s : ℕ} (h : IsClass source s decorated a)
    (hd : ∀ c ∈ decorated, a.opening source ≤ c.begins) : a.Opens source s :=
  ⟨h.start_eq, h.opening_le, fun c hc => (h.front c hc).elim (hd c) id⟩

/-- A class that nothing is decorated of. -/
theorem class_along (h : sub.ReadsTrees source) (flags : ClassFlags) (nameless : Bool) :
    Along source (Eq p) (classRest sub p.start flags nameless []) (One source p) := by
  refine .sound fun hp => ?_
  refine (classRest_along h (.refl hp) (by simp) (Nat.le_refl _) (Nat.le_refl _) (Or.inl rfl) flags
    nameless).mono fun a q hQ => ⟨hQ.1, hQ.2.opens (by simp)⟩

/-- No class begins where a decorator does. -/
theorem not_class_of_at (hp : p.Sound source) (hat : p.token = .mark "@") :
    Text.after? "class".toList (source.drop p.start) = none := by
  rw [← hp.here.eq_drop, hp.view.spelled "@" (by rw [hat]; rfl)]
  rfl

/-- A class with its decorators, from its keyword on. -/
theorem decoratedRest_along (h : sub.ReadsTrees source) {items : List Node}
    (hp : p.Sound source) (hat : p.token = .mark "@")
    (ht : Way source false p items t ∧ AreDecorators p items t) (flags : ClassFlags)
    (nameless : Bool) :
    Along source (Eq t) (classRest sub p.start flags nameless items) (One source p) := by
  have hnone := not_class_of_at hp hat
  refine (classRest_along h ht.1 ht.2.plain (Nat.le_refl _) ht.1.start_le (Or.inr hnone) flags
    nameless).mono fun a q hQ => ⟨hQ.1, hQ.2.opens fun c hc => ?_⟩
  rw [Node.opening_of_none (hQ.2.start_eq ▸ hnone), hQ.2.start_eq]
  exact (ht.1.inside c hc).1

/-- A class with its decorators. -/
theorem decoratedClass_along (h : sub.ReadsTrees source) (flags : ClassFlags) (nameless : Bool)
    (hat : p.token = .mark "@") : Along source (Eq p)
      (do let items ← decorators sub
          classRest sub p.start flags nameless items) (One source p) := by
  exact .sound fun hp => (decorators_along h).bind (fun _ _ hQ => hQ.1.sound) fun items =>
    .each fun t _ ht => decoratedRest_along h hp hat ht flags nameless

end DepBundle.Syntax.Grammar
