import DepBundle.Proofs.Syntax.Grammar.Statement
import DepBundle.Syntax.Grammar.Clause
import Mathlib.Data.List.Forall2
/-!
# Grammar — imports and exports lie in their text

What an import binds is a name, and an export clause without a source only names
what can be referred to. The decorators of a class that is exported may stand in
front of the `export`, so an export is read behind decorators
(`exportStatement_along`).
-/

namespace DepBundle.Syntax.Grammar

open Parse

variable {source : List Char} {p q s t u : Place} {nodes items decorated : List Node}
  {moved moved' : Bool} {sub : Grammar} {value : Node} {shape : Shape Node}

/-! ## Imports -/

theorem attribute_reads : Reads source true (do
    let t ← start
    let key ← match ← token with
      | .string _ _ _ => string
      | _ => anyWord
    expectMark ":"
    let value ← string
    tree t (.property false key value)) fun a => [a] := by
  refine fun p => .here <| .go <| .look token_keeps fun t => ?_
  split
  · refine .step string_readsOne.reads fun key => .step (expectMark_reads source _) fun _ =>
      .step string_readsOne.reads fun value => ?_
    exact .node rfl rfl rfl fun _ _ => trivial
  · refine .step anyWord_readsOne.reads fun key => .step (expectMark_reads source _) fun _ =>
      .step string_readsOne.reads fun value => ?_
    exact .node rfl rfl rfl fun _ _ => trivial

theorem attributes_reads : Reads source false attributes Option.toList := by
  refine fun p => .here <| .look (atWord_keeps _) fun _ => .look (atWord_keeps _) fun _ =>
    .look onNewLine_keeps fun _ => .ite (fun _ => .value ?_) fun _ => .ite (fun _ => .value ?_)
      fun _ => .value ?_
  all_goals
    refine .ite (fun _ => .go <| .pure fun q _ hW => hW) fun _ => .go <|
      .step (advance_reads source) fun _ => .step (bracketed_reads attribute_reads.near) fun (items, _) => ?_
    dsimp only
    rw [map_eq_pure_bind]
    refine .nest rfl rfl (by simp [Shape.children]) (fun _ _ => trivial) fun a _ _ => ?_
    exact .pure fun q _ hW => hW.forget

theorem eatTypeMark_tells : Tells source eatTypeMark false :=
  fun p => .typed <| .look (atWord_keeps _) fun _ => .always rfl <| Tells.pure false p

theorem eatTypeClause_tells : Tells source eatTypeClause false :=
  fun p => .typed <| .look (atWord_keeps _) fun _ => .always rfl <| Tells.pure false p

/-- What is read as a binding name declares it. -/
theorem isBinding_of_bindingName (p : Place) (a : Node) (q : Place)
    (h : bindingName p = some (a, q)) : a.IsBinding := by
  obtain ⟨s, _, -, h⟩ := bind_some h
  obtain ⟨name, _, -, h⟩ := bind_some h
  cases h
  exact ⟨name, rfl⟩

theorem importedName_reads : Reads source true importedName fun a => [a] := by
  refine fun p => .here <| .tells eatTypeMark_tells <| .look token_keeps fun _ =>
    .look (follows_keeps _)
    fun _ => .ite (fun _ => ?_) fun _ => ?_
  · refine .go <|
      .stepOf bindingName_readsOne.reads isBinding_of_bindingName fun target htarget => ?_
    exact .node rfl rfl rfl fun _ _ => htarget
  · refine .go <| .step clauseName_readsOne.reads fun imported =>
      .step (expectWord_reads source _) fun _ =>
      .stepOf bindingName_readsOne.reads isBinding_of_bindingName fun target htarget => ?_
    exact .node rfl rfl rfl fun _ _ => htarget

theorem wholeModule_reads : Reads source true wholeModule fun a => [a] := by
  refine fun p => .here <| .go <| .step (expectMark_reads source _) fun _ =>
    .step (expectWord_reads source _) fun _ =>
      .stepOf bindingName_readsOne.reads isBinding_of_bindingName fun target htarget => ?_
  exact .node rfl rfl rfl fun _ _ => htarget

theorem importedNames_reads : Reads source true importedNames fun items => items :=
  fun _ => .go <| .step (bracketed_reads importedName_reads.near) fun _ =>
    .pure fun q _ hW => by simpa using hW

theorem importClause_reads : Reads source true importClause fun items => items := by
  refine fun p => .here <| .look (atMark_keeps _) fun _ => .ite (fun _ => ?_) fun _ =>
    .look (atMark_keeps _) fun _ => .ite (fun _ => importedNames_reads p) fun _ => ?_
  · exact .go <| .step wholeModule_reads fun _ => .pure fun q _ hW => hW
  refine .go <| .stepOf bindingName_readsOne.reads isBinding_of_bindingName fun target htarget => ?_
  refine .nest rfl rfl rfl (fun _ _ => htarget) fun first _ _ =>
    .step (eatMark_reads source _) fun _ =>
    .ite (fun _ => .pure fun q _ hW => by simpa using hW) fun _ => .look (atMark_keeps _) fun _ =>
      .ite (fun _ => ?_) fun _ => ?_
  · exact .step wholeModule_reads fun _ => .pure fun q _ hW => hW
  · exact .step importedNames_reads fun _ => .pure fun q _ hW => by simpa using hW

theorem importStatement_readsOne : ReadsOne source importStatement := by
  refine fun p => .here <| .go <| .step (expectWord_reads source _) fun _ =>
    .look token_keeps fun t => ?_
  split
  · refine .step string_readsOne.reads fun source => .step attributes_reads fun stated =>
      .step (semicolon_reads _) fun _ => ?_
    exact .tree rfl rfl (by simp [Shape.children]) fun _ _ => trivial
  · refine .tells eatTypeClause_tells <| .typed <| .look token_keeps fun _ =>
      .look (follows_keeps _) fun _ =>
      .never (by simp) <| .step (attempt_passes ?_) fun _ => ?_
    · -- a phase of the import may be named first
      refine fun p => .go <| .bind (R := fun _ q => Way source false p [] q)
        (.loop (I := fun _ q => Way source false p [] q) (fun q hW => hW) (fun _ _ hI => hI.sound)
          (fun _ _ hI => hI.sound) (fun w _ => ?_) fun _ _ hI => hI)
          (fun _ _ hI => hI.sound) fun _ => ?_
      · refine .look (atWord_keeps _) fun _ => .look (follows_keeps _) fun _ =>
          .ite (fun _ => ?_) fun _ => ?_
        · exact .step (advance_reads source) fun _ => .pure fun q _ hW => hW.forget
        · exact .pure fun q _ hW => hW
      · exact .pure fun q _ hW => hW
    · refine .step importClause_reads fun items => .step (expectWord_reads source _) fun _ =>
        .step string_readsOne.reads fun source => .step attributes_reads fun stated =>
          .step (semicolon_reads _) fun _ => ?_
      exact .tree rfl rfl (by simp [Shape.children]) fun _ _ => trivial

/-! ## Exports -/

theorem exportedName_reads : Reads source true exportedName fun a => [a] := by
  refine fun p => .here <| .tells eatTypeMark_tells <| .go <|
    .step clauseName_readsOne.reads fun inner =>
    .step (eatWord_reads source _) fun _ => ?_
  refine .ite (fun _ => .step (some_reads clauseName_readsOne.reads) fun exported =>
    ?_) fun _ => .value ?_
  all_goals exact .node rfl rfl (by simp [Shape.children]) fun _ _ => trivial

/-- A name of an export clause lies in the text also as a reference. -/
theorem exportedReference_fits {context : Context} {item found : Node} (h : item.Lies source)
    (hfound : exportedReference context item = some found) :
    Fits source item found ∧ found.NamesReference := by
  obtain ⟨span, shape⟩ := item
  unfold exportedReference at hfound
  split at hfound
  · rename_i typeOnly inner w exported hshape
    split_ifs at hfound
    cases hfound
    rw [Node.shape] at hshape
    subst hshape
    refine ⟨?_, typeOnly, inner, w, exported, rfl⟩
    have hword : (Node.mk inner (.word w)).Lies source := h.child (List.mem_cons_self ..)
    refine .reshape h rfl rfl (.cons (.reshape hword rfl rfl .nil hword.stands.sits) ?_) trivial
    exact List.forall₂_same.2 fun c hc => .refl (h.child (List.mem_cons_of_mem _ hc))
  · cases hfound

theorem exportedReferences_fit {context : Context} {found : List Node}
    (h : ∀ item ∈ items, item.Lies source)
    (hfound : items.mapM (exportedReference context) = some found) :
    List.Forall₂ (Fits source) items found ∧ ∀ item ∈ found, item.NamesReference := by
  induction items generalizing found with
  | nil =>
    cases hfound
    exact ⟨.nil, by simp⟩
  | cons item items ih =>
    obtain ⟨hitem, hitems⟩ := List.forall_mem_cons.1 h
    simp only [List.mapM_cons, Option.bind_eq_bind, Option.bind_eq_some_iff, Option.pure_def,
      Option.some.injEq] at hfound
    obtain ⟨first, hfirst, more, hmore, rfl⟩ := hfound
    obtain ⟨hfits, hnames⟩ := exportedReference_fits hitem hfirst
    obtain ⟨hrest, hall⟩ := ih hitems hmore
    exact ⟨.cons hfits hrest, List.forall_mem_cons.2 ⟨hnames, hall⟩⟩

/-- **Names in braces**, from the `export` in front of them on. -/
theorem exportNames_along (typeOnly : Bool) : Along source (Way source true p [])
    (exportNames p.start typeOnly) (One source p) := by
  refine .step (bracketed_reads exportedName_reads.near) fun (items, _) =>
    .step (eatWord_reads source _) fun _ => .ite (fun _ => ?_) fun _ => ?_
  · refine .step string_readsOne.reads fun source => .step attributes_reads fun stated =>
      .step (semicolon_reads _) fun _ => ?_
    exact .tree rfl rfl (by simp [Shape.children]) fun _ _ => trivial
  · refine .place fun q _ hW => ?_
    split
    · exact .refuse
    · rename_i found hfound
      have hW : Way source true p items q := by simpa using hW
      obtain ⟨hfits, hnames⟩ := exportedReferences_fit hW.lies hfound
      refine .of_imp (V := Way source true p found) ?_ fun r (hr : q = r) => hr ▸ hW.refit hfits
      refine .step (semicolon_reads _) fun _ => ?_
      exact .tree rfl rfl (by simp [Shape.children]) fun _ _ => hnames

/-- **All names of another module**, from the `export` in front of them on. -/
theorem exportAll_along (typeOnly : Bool) : Along source (Way source true p [])
    (exportAll p.start typeOnly) (One source p) := by
  refine .step (expectMark_reads source _) fun _ => .step (eatWord_reads source _) fun _ => ?_
  refine .ite (fun _ => .step (some_reads clauseName_readsOne.reads) fun exported =>
    ?_) fun _ => .value ?_
  all_goals
    refine .step (expectWord_reads source _) fun _ => .step string_readsOne.reads fun source =>
      .step attributes_reads fun stated => .step (semicolon_reads _) fun _ => ?_
    exact .tree rfl rfl (by simp [Shape.children]) fun _ _ => trivial

/-- **What may be exported from a place on:** what it has stands before the place or
after its keyword. -/
structure Exportable (source : List Char) (start : ℕ) (value : Node) : Prop where
  start_le : start ≤ value.span.start
  opening_le : value.opening source ≤ value.span.stop
  front : ∀ c ∈ value.children, c.span.stop ≤ start ∨ value.opening source ≤ c.begins
  carried : ∀ c ∈ value.carried, c ∈ value.decorators ∨ start ≤ c.span.start

theorem exportable_of_one {start : ℕ} (h : One source t value q) (hstart : start ≤ t.start) :
    Exportable source start value := by
  have heq := h.opens.start_eq
  refine ⟨by omega, h.opens.opening_le, fun c hc => Or.inr (h.opens.front c hc), fun c hc =>
    Or.inr ?_⟩
  have hle := Node.begins_le_of_mem_carried hc
  have hbegins := h.begins_eq
  omega

/-- **An export** of what may be exported, behind the decorators in front of it. -/
theorem export_along (hle : u.start ≤ s.start)
    (hshape : shape = .exportDecl value ∨ shape = .exportDefault value) :
    Along source (fun q => Way source true u [value] q ∧ Exportable source s.start value)
      (tree s.start shape) fun a q => Way source true u [a] q := by
  rintro q hq ⟨hW, h⟩ _ _ ⟨⟩
  have hvalue := hW.lies value (List.mem_singleton_self value)
  have hfrom := (hW.inside value (List.mem_singleton_self value)).1
  have hended := hW.ended value (List.mem_singleton_self value)
  have hordered := hvalue.stands.ordered
  have hstart := h.start_le
  have hchildren : shape.children = [value] := by rcases hshape with rfl | rfl <;> rfl
  have hcarried : (Node.mk ⟨s.start, q.last⟩ shape).carried = value.decorators := by
    rcases hshape with rfl | rfl <;> rfl
  have hbegins : (Node.mk ⟨s.start, q.last⟩ shape).begins ≤ s.start := Node.begins_le_start _
  -- decorators of what is exported may stand in front of the export
  have hinside : (Node.mk ⟨s.start, q.last⟩ shape).begins ≤ value.begins := by
    refine Node.le_begins (Nat.le_trans hbegins hstart) fun c hc => ?_
    rcases h.carried c hc with hc | hc
    · exact Node.begins_le_of_mem_carried (hcarried ▸ hc)
    · exact Nat.le_trans hbegins hc
  have hsits : Node.Sits source ⟨s.start, q.last⟩ shape := by
    rcases hshape with rfl | rfl <;> exact ⟨hstart, h.opening_le, h.front⟩
  refine hW.fold (.mk ⟨?_, ?_, fun c hc => ?_, hsits⟩ fun c hc => ?_) ?_ (Nat.le_refl _)
  · dsimp only
    omega
  · rw [hchildren]
    exact List.pairwise_singleton _ _
  · obtain rfl := List.mem_singleton.1 (hchildren ▸ hc)
    exact ⟨hinside, hended⟩
  · obtain rfl := List.mem_singleton.1 (hchildren ▸ hc)
    exact hvalue
  · refine Node.le_begins hle fun c hc => Nat.le_trans hfrom ?_
    exact Node.begins_le_of_mem_carried (Node.mem_carried_of_mem_decorators (hcarried ▸ hc))

/-- What is read as a class may be exported with the decorators in front of it. -/
theorem exportable_of_class {inner : List Node} (hway : Way source moved u decorated s)
    (hst : s.start ≤ t.start) (ht : t.Sound source) (hinner : Way source moved' t inner p ∧
      AreDecorators t inner p)
    (h : IsClass source t.start (decorated ++ inner) value) : Exportable source s.start value := by
  refine ⟨h.start_eq ▸ hst, h.opening_le, fun c hc => ?_, fun c hc => Or.inl ?_⟩
  · rcases h.front c hc with hc | hc
    · rcases List.mem_append.1 hc with hc | hc
      · exact Or.inl (hway.inside c hc).2
      · rcases hinner.2.none_or_at with ⟨rfl, -⟩ | hat
        · cases hc
        · -- in front of the keyword there are decorators, so it is not where the class begins
          rw [Node.opening_of_none (h.start_eq ▸ not_class_of_at ht hat), h.start_eq]
          exact Or.inr (hinner.1.inside c hc).1
    · exact Or.inr hc
  · rw [h.decorators_eq, ← h.carried_eq]
    exact hc

/-- **A class that is exported**, from its keyword on. -/
theorem exportedClass_along (h : sub.ReadsTrees source) (hway : Way source moved u decorated s)
    (hplain : ∀ c ∈ decorated, c.shape.carries = false) (hst : Way source moved' s [] t)
    {inner : List Node} (hinner : Way source false t inner p ∧ AreDecorators t inner p)
    (nameless : Bool) : Along source (Eq p)
      (classRest sub t.start ⟨true, false⟩ nameless (decorated ++ inner))
      fun a q => Way source true u [a] q ∧ Exportable source s.start a := by
  have hall := (hway.trans hst).trans hinner.1
  rw [List.append_nil] at hall
  have hle := (hway.trans hst).start_le
  refine (classRest_along h hall (fun c hc => ?_) hle hinner.1.start_le ?_ _ _).mono fun a q hQ =>
    ⟨hQ.1, exportable_of_class hway hst.start_le hst.sound hinner hQ.2⟩
  · exact (List.mem_append.1 hc).elim (hplain c) (hinner.2.plain c)
  · rcases hinner.2.none_or_at with ⟨-, rfl⟩ | hat
    · exact Or.inl rfl
    · exact Or.inr (not_class_of_at hst.sound hat)

/-- What opens where it begins may be exported, and then nothing stands in front of
the `export`. -/
theorem exportable_along {m : Parse Node} (hm : ReadsOne source m)
    (hway : Way source moved u decorated s) (hst : Way source moved' s [] t) :
    Along source (Eq t) m fun a q => Way source true u [a] q ∧ Exportable source s.start a := by
  refine (hm t).mono fun a q hone => ⟨?_, exportable_of_one hone hst.start_le⟩
  have hall := ((hway.sublist (List.nil_sublist decorated)).trans hst).trans hone.way
  exact ⟨hall.toNear, hall.ended, fun _ => hall.passed (by simp)⟩

/-- **What is exported by default.** -/
theorem exportDefault_along (h : sub.ReadsTrees source) (hway : Way source moved u decorated s)
    (hplain : ∀ c ∈ decorated, c.shape.carries = false) :
    Along source (Way source true s []) (exportDefault sub s.start decorated)
      fun a q => Way source true u [a] q := by
  have hend : ∀ value, Along source
      (fun q => Way source true u [value] q ∧ Exportable source s.start value)
      (tree s.start (.exportDefault value)) fun a q => Way source true u [a] q :=
    fun value => export_along hway.start_le (Or.inr rfl)
  refine .start fun t _ hst => .look (atWord_keeps _) fun _ => .look (atMark_keeps _) fun _ =>
    .typed <| .look (atWord_keeps _) fun _ => .look (followsHere_keeps _) fun _ => .typed <|
      .look (atWord_keeps _) fun _ => .look (followsHere_keeps _) fun _ =>
      .look atFunction_keeps fun _ => ?_
  refine .ite (fun _ => ?_) fun _ => .never rfl <| .never rfl <| .ite (fun _ => ?_) fun _ => ?_
  · refine (decorators_along h).bind (fun _ _ hQ => hQ.1.sound) fun inner =>
      .each fun p _ hinner => ?_
    exact (exportedClass_along h hway hplain hst hinner true).bind (fun _ _ hQ => hQ.1.sound) hend
  · exact (exportable_along (function_readsOne h _ _) hway hst).bind (fun _ _ hQ => hQ.1.sound) hend
  · refine (exportable_along h.assignment hway hst).bind (fun _ _ hQ => hQ.1.sound) fun value =>
      .each fun q _ hQ => ?_
    refine (semicolon_reads source q).bind (fun _ _ hW => hW.sound) fun _ => .value ?_
    exact .of_imp (hend value) fun r hW => ⟨by simpa using hQ.1.trans hW, hQ.2⟩

theorem atDeclaration_keeps : Keeps atDeclaration := by
  have htype : Keeps atTypeDeclaration := by
    refine typed_keeps.bind fun _ => .ite (.pure _) <| token_keeps.bind fun t => ?_
    split
    all_goals first
      | exact followsHere_keeps _
      | exact follows_keeps _
      | exact .pure _
  exact htype.bind fun _ => .ite (.pure _) <| atFunction_keeps.bind fun _ => .ite (.pure _) <|
    (atWord_keeps _).bind fun _ => (atMark_keeps _).bind fun _ => (atWord_keeps _).bind fun _ =>
      variableKind?_keeps.bind fun _ => .pure _

/-- **An export**, behind the decorators in front of it. -/
theorem exportStatement_along (h : sub.ReadsTrees source) (hway : Way source moved u decorated s)
    (hplain : ∀ c ∈ decorated, c.shape.carries = false) :
    Along source (Eq s) (exportStatement sub decorated) fun a q => Way source true u [a] q := by
  have hone : ∀ {a q}, One source s a q → Way source true u [a] q := fun hone => by
    have hall := (hway.sublist (List.nil_sublist decorated)).trans hone.way
    exact ⟨hall.toNear, hall.ended, fun _ => hall.passed (by simp)⟩
  have hend : ∀ value, Along source
      (fun q => Way source true u [value] q ∧ Exportable source s.start value)
      (tree s.start (.exportDecl value)) fun a q => Way source true u [a] q :=
    fun value => export_along hway.start_le (Or.inl rfl)
  refine .here <| .go <| .step (expectWord_reads source _) fun _ =>
    .step (eatWord_reads source _) fun _ =>
    .ite (fun _ => exportDefault_along h hway hplain) fun _ => .look (atMark_keeps _) fun _ =>
      .ite (fun _ => (exportAll_along false).mono fun _ _ => hone) fun _ =>
      .look (atMark_keeps _) fun _ =>
        .ite (fun _ => (exportNames_along false).mono fun _ _ => hone) fun _ => .typed <|
        .never rfl ?_
  refine .look atDeclaration_keeps fun _ => .require fun _ => .look (atWord_keeps _) fun _ =>
    .look (atMark_keeps _) fun _ => .ite (fun _ => .start fun t _ hst => ?_) fun _ =>
      .each fun t _ hst => ?_
  · refine (decorators_along h).bind (fun _ _ hQ => hQ.1.sound) fun inner =>
      .typed <| .look (atWord_keeps _) fun _ => .never rfl <| .each fun p _ hinner => ?_
    exact (exportedClass_along h hway hplain hst hinner false).bind (fun _ _ hQ => hQ.1.sound) hend
  · exact (exportable_along (statement_readsOne h false) hway hst).bind
      (fun _ _ hQ => hQ.1.sound) hend

/-- **A statement of any kind** reads one tree. -/
theorem anyStatement_reads (h : sub.ReadsTrees source) (alone : Bool) :
    Reads source true (anyStatement sub alone) fun a => [a] := by
  intro p
  have hplain := (statement_readsOne h alone).reads p
  refine .sound fun hp => .look token_keeps fun t => ?_
  split
  · refine .look (follows_keeps _) fun _ => .ite (fun _ => hplain) fun _ => ?_
    exact importStatement_readsOne.reads p
  · exact exportStatement_along h (.refl hp) (by simp)
  · have hdecorated : Along source (Eq p) (do
        let items ← decorators sub
        require (← atWord "export")
        return items) fun items q => Way source false p items q ∧ AreDecorators p items q :=
      (decorators_along h).bind (fun _ _ hQ => hQ.1.sound) fun items =>
      .look (atWord_keeps _) fun _ =>
        .require fun _ => .pure fun _ _ hQ => hQ
    refine .attempt hdecorated (fun _ _ hQ => hQ.1.sound) (fun items => .each fun q _ hQ =>
      ?_) hplain
    exact exportStatement_along h hQ.1 hQ.2.plain
  · exact hplain

end DepBundle.Syntax.Grammar
