import DepBundle.Proofs.Syntax.Grammar.Function
import DepBundle.Proofs.Syntax.Target
import DepBundle.Syntax.Grammar.Expression
/-!
# Grammar — expressions lie in their text

Every reader of an expression reads one tree that opens where it begins. An
expression that something follows becomes a part of the tree that is read with it,
so the loops over what follows carry the one tree there is so far
(`links_along`, `operandsRest_along`).
-/

namespace DepBundle.Syntax.Grammar

open Parse

variable {source : List Char} {p q t : Place} {nodes : List Node} {moved moved' : Bool}
  {sub : Grammar} {e : Node} {α : Type} {m : Parse α} {kids : α → List Node}

theorem enclosed_reads (hm : Reads source moved m kids) : Reads source moved (enclosed m) kids :=
  within_reads hm

/-! ## What stands by itself -/

theorem spreadItem_reads (h : sub.ReadsTrees source) :
    Reads source true (spreadItem sub) fun a => [a] := by
  refine fun p => .here <| .go <| .step (eatMark_reads source _) fun _ =>
    .ite (fun _ => ?_) fun _ => ?_
  · refine .step h.assignment.reads fun value => .look (atMark_keeps _) fun _ => ?_
    refine .ite (fun _ => .step (modify_reads fun _ =>
      ⟨rfl, rfl, rfl, rfl, rfl, rfl, rfl⟩) fun _ => ?_)
      fun _ => ?_
    all_goals exact .node rfl rfl rfl fun _ _ => trivial
  · exact .last h.assignment.reads

theorem arrayItem_near (h : sub.ReadsTrees source) (p : Place) :
    Along source (Eq p) (arrayItem sub) fun a q => Near source p [a] q := by
  refine .here <| .look (atMark_keeps _) fun _ => .ite (fun _ => ?_) fun _ =>
    (spreadItem_reads h).near p
  exact .pure fun q hq hW => by subst hW; exact hole_near hq

theorem accessorRole_reads : Reads source false accessorRole fun _ => [] := by
  refine fun p => .look (atWord_keeps _) fun _ => .look (follows_keeps _) fun _ =>
    .ite (fun _ => ?_)
    fun _ => .look (atWord_keeps _) fun _ => .look (follows_keeps _) fun _ =>
    .ite (fun _ => ?_) fun _ => ?_
  · exact .go <| .step (advance_reads source) fun _ => .pure fun _ _ hW => hW.forget
  · exact .go <| .step (advance_reads source) fun _ => .pure fun _ _ hW => hW.forget
  · exact .pure fun q hq hW => by subst hW; exact .refl hq

theorem objectMember_reads (h : sub.ReadsTrees source) :
    Reads source true (objectMember sub) fun a => [a] := by
  refine fun p => .here <| .look (atMark_keeps _) fun _ =>
    .ite (fun _ => spreadItem_reads h p) fun _ => ?_
  refine .look (atWord_keeps _) fun _ => .look (followsHere_keeps _) fun _ => ?_
  refine .ite (fun _ => .go <| .step (advance_reads source) fun _ => .value ?_)
    fun _ => .go <| .value ?_
  all_goals
    refine .step (eatMark_reads source _) fun _ => .ite (fun _ => .value ?_)
      fun _ => .step accessorRole_reads fun role => ?_
  all_goals
    refine .look token_keeps fun _ => .look (follows_keeps _) fun _ =>
      .ite (fun _ => ?_) fun _ => ?_
    · refine .step referenceName_readsOne.reads fun name => .step (eatMark_reads source _) fun _ =>
        .ite (fun _ => ?_) fun _ => .node rfl rfl rfl fun _ _ => trivial
      refine .step h.assignment.reads fun value =>
        .step (modify_reads fun _ => ⟨rfl, rfl, rfl, rfl, rfl, rfl, rfl⟩) fun _ => ?_
      refine .nest rfl rfl rfl (fun _ _ => trivial) fun defaulted _ _ => ?_
      exact .node rfl rfl rfl fun _ _ => trivial
    · refine .step (propertyKey_reads h) fun (computed, key) => .look (atMark_keeps _) fun _ =>
        .typed <| .look (atMark_keeps _) fun _ => .ite (fun _ => ?_) fun _ => ?_
      · refine .step (methodFunction_reads h _ _ _) fun value => ?_
        exact .node rfl rfl rfl fun _ _ => trivial
      · refine .step (expectMark_reads source _) fun _ => .step h.assignment.reads fun value => ?_
        exact .node rfl rfl rfl fun _ _ => trivial

theorem templateParts_go_reads (h : sub.ReadsTrees source) (tagged : Bool) (n : ℕ) :
    Reads source true (templateParts.go sub tagged n) fun parts => parts.2 := by
  induction n with
  | zero => exact fun p => .refuse
  | succ n ih =>
    intro p
    rw [templateParts.go]
    refine .look token_keeps fun t => ?_
    split
    · refine .require fun _ => .go <| .step (advance_reads source) fun _ =>
        .ite (fun _ => ?_) fun _ => ?_
      · exact .pure fun q _ hW => hW
      · refine .step (enclosed_reads h.expression.reads) fun value =>
          .look (atMark_keeps _) fun _ =>
          .require fun _ => .reread pieceLexeme_extends <| .step ih fun (texts, values) => ?_
        exact .pure fun q _ hW => hW
    · exact .refuse

theorem templateParts_reads (h : sub.ReadsTrees source) (tagged : Bool) :
    Reads source true (templateParts sub tagged) fun parts => parts.2 :=
  fun p => .look get_keeps fun place => templateParts_go_reads h tagged place.limit p

theorem template_readsOne (h : sub.ReadsTrees source) (tagged : Bool) :
    ReadsOne source (template sub tagged) :=
  fun _ => .here <| .go <| .step (templateParts_reads h tagged) fun (_, _) =>
    .tree rfl rfl rfl fun _ _ => trivial

theorem arguments_reads (h : sub.ReadsTrees source) :
    Reads source true (arguments sub) fun args => args :=
  enclosed_reads fun _ => .go <| .step (bracketed_reads (spreadItem_reads h).near) fun items =>
    .pure fun q _ hW => by simpa using hW

theorem paren_readsOne (h : sub.ReadsTrees source) : ReadsOne source (paren sub) := by
  refine fun p => .here <| .go <| .step (expectMark_reads source _) fun _ =>
    .step (enclosed_reads h.expression.reads) fun value =>
    .step (expectMark_reads source _) fun _ => ?_
  exact .tree rfl rfl rfl fun _ _ => trivial

/-- What is imported is read from the bracket on. -/
theorem importArguments_along (h : sub.ReadsTrees source) : Along source (Way source true p [])
    (do let (args, _) ← enclosed (bracketed "(" ")" (sub .assignment))
        match args with
        | [source] => tree p.start (.importCall source none)
        | [source, options] => tree p.start (.importCall source (some options))
        | _ => refuse) (One source p) := by
  refine .step (enclosed_reads (bracketed_reads h.assignment.reads.near)) fun found => ?_
  obtain ⟨args, -⟩ := found
  dsimp only
  split
  · exact .tree rfl rfl rfl fun _ _ => trivial
  · exact .tree rfl rfl rfl fun _ _ => trivial
  · exact .refuse

theorem importValue_readsOne (h : sub.ReadsTrees source) : ReadsOne source (importValue sub) := by
  intro p
  have hcall := importArguments_along h (p := p)
  refine .here <| .go <| .step (expectWord_reads source _) fun _ =>
    .step (eatMark_reads source _) fun _ => .ite (fun _ => ?_) fun _ => hcall
  refine .step (eatWord_reads source _) fun _ => .ite (fun _ => .tree rfl rfl rfl fun _ _ =>
    trivial)
    fun _ => .step (eatWord_reads source _) fun _ => .ite (fun _ => ?_) fun _ => hcall
  exact .step (expectWord_reads source _) fun _ => hcall

theorem primaryWord_readsOne (h : sub.ReadsTrees source) (w : String) :
    ReadsOne source (primaryWord sub w) := by
  intro p
  unfold primaryWord
  refine .here ?_
  split
  · exact leaf_along rfl rfl fun _ _ => trivial
  · exact leaf_along rfl rfl fun _ _ => trivial
  · exact leaf_along rfl rfl fun _ _ => trivial
  · exact leaf_along rfl rfl fun _ _ => trivial
  · exact class_along h _ _
  · refine .go <| .step (advance_reads source) fun _ => .look (atMark_keeps _) fun _ =>
      .look (atMark_keeps _) fun _ => .look (atMark_keeps _) fun _ => .require fun _ => ?_
    exact .tree rfl rfl rfl fun _ _ => trivial
  · exact importValue_readsOne h p
  · exact referenceName_readsOne p

/-- A regular expression, read anew from its slash on. -/
theorem regex_along : Along source (Eq p) (do
    reread regexLexeme
    match ← token with
    | .regex text => advance; tree p.start (.regex text)
    | _ => refuse) (One source p) := by
  rintro _ hp rfl a q hrun
  obtain ⟨_, _, hreread, hrun⟩ := bind_some hrun
  cases hreread
  obtain ⟨_, _, htoken, hrun⟩ := bind_some hrun
  cases htoken
  have hleaf : ∀ text (r : Place), r.start = p.start → r.last = p.last → Along source (Eq r)
      (do advance; tree p.start (.regex text)) (One source p) := fun text r hstart hlast => by
    rw [← hstart]
    have hone : Along source (Eq r) (do advance; tree r.start (.regex text)) (One source r) :=
      leaf_along rfl rfl fun _ _ => trivial
    exact hone.mono fun _ _ hQ => hQ.of_start hstart hlast
  cases htoken : (regexLexeme p.start p.here).token
  all_goals dsimp only at hrun
  case regex text =>
    have hsound := hp.reread (regexLexeme_extends htoken)
    rw [htoken] at hrun hsound
    refine hleaf text _ ?_ ?_ _ hsound rfl a q hrun
    all_goals rfl
  all_goals
    rw [htoken] at hrun
    cases hrun

theorem primary_readsOne (h : sub.ReadsTrees source) : ReadsOne source (primary sub) := by
  refine fun p => .here <| .look atFunction_keeps fun _ => .ite (fun _ => function_readsOne h _ _ p)
    fun _ => .token ?_
  generalize htoken : p.token = t
  split
  · exact primaryWord_readsOne h _ p
  · exact referenceName_readsOne p
  · exact string_readsOne p
  · exact leaf_along rfl rfl fun _ _ => trivial
  · exact leaf_along rfl rfl fun _ _ => trivial
  · exact template_readsOne h _ p
  · exact regex_along
  · exact regex_along
  · refine .go <| .step (enclosed_reads (bracketed_reads (arrayItem_near h))) fun (items, _) => ?_
    exact .tree rfl rfl (by simp [Shape.children]) fun _ _ => trivial
  · refine .go <| .step (enclosed_reads (bracketed_reads (objectMember_reads h).near))
      fun (members, _) => ?_
    exact .tree rfl rfl (by simp [Shape.children]) fun _ _ => trivial
  · exact paren_readsOne h p
  · exact decoratedClass_along h _ _ htoken
  · -- there are no elements
    refine .place fun q hq _ => .require fun hmarkup => ?_
    exact absurd (hq.plain.symm.trans hmarkup) Bool.false_ne_true
  · exact .refuse

/-! ## What is selected and called -/

theorem selectedName_readsOne : ReadsOne source selectedName := by
  refine fun p => .look token_keeps fun t => ?_
  split
  · exact privateName_readsOne p
  · exact anyWord_readsOne p

theorem subscript_reads (h : sub.ReadsTrees source) :
    Reads source true (subscript sub) fun a => [a] :=
  fun _ => .go <| .step (enclosed_reads h.expression.reads) fun _ =>
    .step (expectMark_reads source _) fun _ => .pure fun _ _ hW => hW

/-- **What follows an expression** is read into one tree with it. -/
theorem links_along (h : sub.ReadsTrees source) (calls : Bool) (n : ℕ) :
    ∀ e chained, e.Opens source p.start → Along source (Way source true p [e])
      (links sub calls p.start n e chained) fun r q => One source p r.1 q := by
  induction n with
  | zero => exact fun e chained _ => .refuse
  | succ n ih =>
    intro e chained he
    have hend : Along source (Way source true p [e]) (pure (e, chained) : Parse (Node × Bool))
        fun r q => One source p r.1 q := .pure fun q _ hW => ⟨hW, he⟩
    -- each link makes a tree of the expression so far, and the loop goes on from that
    rw [links]
    refine .look token_keeps fun t => ?_
    split
    · refine .step (advance_reads source) fun _ => .step selectedName_readsOne.reads fun name => ?_
      exact .nest rfl rfl rfl (fun _ _ => trivial) fun e he _ => ih e _ he
    · refine .look (follows_keeps _) fun _ => .ite (fun _ => hend) fun _ =>
        .step (advance_reads source) fun _ => .look token_keeps fun t => ?_
      split
      · refine .step (advance_reads source) fun _ => .step (subscript_reads h) fun value => ?_
        exact .nest rfl rfl rfl (fun _ _ => trivial) fun e he _ => ih e _ he
      · refine .step (arguments_reads h) fun args => ?_
        exact .nest rfl rfl (by simp [Shape.children]) (fun _ _ => rfl) fun e he _ => ih e _ he
      · exact .typed <| .require fun hfalse => absurd hfalse Bool.false_ne_true
      · refine .step selectedName_readsOne.reads fun name => ?_
        exact .nest rfl rfl rfl (fun _ _ => trivial) fun e he _ => ih e _ he
    · refine .look get_keeps fun _ => .ite (fun _ => hend) fun _ =>
        .step (advance_reads source) fun _ => .step (subscript_reads h) fun value => ?_
      exact .nest rfl rfl rfl (fun _ _ => trivial) fun e he _ => ih e _ he
    · refine .require fun _ => .step (template_readsOne h _).reads fun quasi => ?_
      exact .nest rfl rfl rfl (fun _ _ => trivial) fun e he _ => ih e _ he
    · refine .ite (fun _ => hend) fun _ => .step (arguments_reads h) fun args => ?_
      exact .nest rfl rfl (by simp [Shape.children]) (fun _ _ => rfl) fun e he _ => ih e _ he
    · exact .typed <| .look onNewLine_keeps fun _ => .always rfl hend
    · exact .typed <| .always (by simp) hend
    · exact hend

theorem memberChain_along (h : sub.ReadsTrees source) (he : e.Opens source p.start) :
    Along source (Way source true p [e]) (memberChain sub p.start e) fun r q =>
    One source p r.1 q :=
  .look get_keeps fun place => links_along h false place.limit e false he

/-- What is constructed is no `import()` and lies outside optional chains. -/
theorem constructed_along (chained : Bool) (function : Node) (types : Option Node)
    (args : List Node) : Along source (Way source true p (function :: types.toList ++ args))
      (do require !chained
          match function.shape with
          | .importCall _ _ => refuse
          | _ => tree p.start (.construct function types args)) (One source p) := by
  refine .require fun _ => ?_
  split
  · exact .refuse
  · exact .tree rfl rfl (by simp [Shape.children]) fun _ _ => trivial

theorem construct_go_readsOne (h : sub.ReadsTrees source) (n : ℕ) :
    ReadsOne source (construct.go sub n) := by
  induction n with
  | zero => exact fun p => .refuse
  | succ n ih =>
    intro p
    rw [construct.go]
    refine .here <| .go <| .step (expectWord_reads source _) fun _ =>
      .step (eatMark_reads source _) fun _ => .ite (fun _ => ?_) fun _ => ?_
    · exact .step (expectWord_reads source _) fun _ => .tree rfl rfl rfl fun _ _ => trivial
    refine .start fun t _ hpt => .look (atWord_keeps _) fun _ => ?_
    refine .ite (fun _ => .one ih fun head hopens => ?_)
      fun _ => .one (primary_readsOne h) fun head hopens => ?_
    all_goals
      refine .bind (memberChain_along h hopens)
        (fun _ _ hQ => hQ.way.sound) fun (callee, chained) =>
        .each fun q _ hcallee => ?_
      have hway := hpt.trans hcallee.way
      split
      rename_i heq
      cases heq
      split
      rename_i function types heq
      -- type arguments that were read with the callee are taken from it again
      have hparts : Way source true p (function :: types.toList) q := by
        split at heq
        · rename_i hshape
          cases heq
          have hspread := hway.spread
          rw [Node.children, hshape] at hspread
          exact hspread
        · cases heq
          exact hway
      refine .look (atMark_keeps _) fun _ => .of_imp ?_ fun r (hr : q = r) => hr ▸ hparts
      refine .ite (fun _ => .step (arguments_reads h) (constructed_along chained function types))
        fun _ => .value <| .of_imp (constructed_along chained function types []) fun r hW => by
          simpa using hW

theorem construct_readsOne (h : sub.ReadsTrees source) : ReadsOne source (construct sub) :=
  fun p => .look get_keeps fun place => construct_go_readsOne h place.limit p

theorem leftHand_readsOne (h : sub.ReadsTrees source) : ReadsOne source (leftHand sub) := by
  refine fun p => .here <| .look (atWord_keeps _) fun _ => ?_
  refine .ite (fun _ => .one (construct_readsOne h) fun head hopens => ?_)
    fun _ => .one (primary_readsOne h) fun head hopens => ?_
  all_goals
    refine .look get_keeps fun place => ?_
    refine .bind (links_along h _ _ _ _ hopens) (fun _ _ hQ => hQ.way.sound) fun (e, chained) => ?_
    refine .ite (fun _ => .pure fun q _ hQ => hQ) fun _ => ?_
    split
    all_goals first
      | exact .of_imp (.tree rfl rfl rfl fun _ _ => trivial) fun q hQ => hQ.way
      | exact .pure fun q _ hQ => hQ

/-! ## One operand -/

/-- The target stands in the place of its expression. -/
theorem target_along (simple : Bool) :
    Along source (Way source moved p [e]) (target simple e) fun t q =>
    Way source moved p [t] q := by
  refine .place fun q _ hW => ?_
  split
  · exact .refuse
  · rename_i t members ht
    have hlies := hW.lies e (List.mem_singleton_self e)
    have hfits := target?_fits q.trailing hlies t members ht
    have hway := hW.refit (.cons hfits .nil)
    refine .require fun _ => .of_imp (V := Way source moved p [t]) ?_ fun r (hr : q = r) =>
      hr ▸ hway
    refine .step (modify_reads fun _ => ⟨rfl, rfl, rfl, rfl, rfl, rfl, rfl⟩) fun _ => ?_
    exact .pure fun r _ hW => by simpa using hW

/-- **An operand that may be updated:** the operator stands in front of it or behind
it, or nowhere. -/
theorem updated_along (h : sub.ReadsTrees source) :
    Along source (Eq p) (do
      if p.token == .mark "++" || p.token == .mark "--" then
        advance
        let value ← target true (← sub .unary)
        return ← tree p.start (.update true (if p.token == .mark "++" then "++" else "--") value)
      let e ← sub .leftHand
      for op in ["++", "--"] do
        if (← atMark op) && !(← onNewLine) then
          let e ← target true e
          advance
          return ← tree p.start (.update false op e)
      return e) (One source p) := by
  refine .ite (fun _ => ?_) fun _ => ?_
  · refine .go <| .step (advance_reads source) fun _ => .step h.unary.reads fun value => ?_
    refine .bind (target_along true) (fun _ _ hQ => hQ.sound) fun t => ?_
    exact .tree rfl rfl rfl fun _ _ => trivial
  · refine .one h.leftHand fun e hopens => ?_
    refine .bind (R := fun r q => One source p (r.1.getD e) q)
      (.loop (I := fun r q => r.1 = none ∧ Way source true p [e] q) (fun q hW => ⟨rfl, hW⟩)
        (fun r q hI => hI.2.sound) (fun r q hR => hR.way.sound) ?_ ?_)
      (fun r q hR => hR.way.sound) fun r => ?_
    · intro op r
      refine .of_imp (V := Way source true p [e]) ?_ fun q hI => hI.2
      refine .look (atMark_keeps _) fun _ => .look onNewLine_keeps fun _ =>
        .ite (fun _ => ?_) fun _ => ?_
      · refine .bind (target_along true) (fun _ _ hQ => hQ.sound) fun t => ?_
        refine .step (advance_reads source) fun _ => ?_
        refine .bind (.tree rfl rfl rfl fun _ _ => trivial)
          (fun _ _ hQ => hQ.way.sound) fun a => ?_
        exact .pure fun q _ hQ => hQ
      · exact .pure fun q _ hW => ⟨rfl, hW⟩
    · rintro r q ⟨hnone, hway⟩
      rw [hnone]
      exact ⟨hway, hopens⟩
    · dsimp only
      split
      · rename_i a hsome
        exact .pure fun q _ hQ => by rwa [hsome] at hQ
      · rename_i hnone
        exact .pure fun q _ hQ => by rwa [hnone] at hQ

theorem unary_readsOne (h : sub.ReadsTrees source) : ReadsOne source (unary sub) := by
  refine fun p => .here <| .token ?_
  split
  · refine .go <| .step (advance_reads source) fun _ => .step h.unary.reads fun value =>
      .look (atMark_keeps _) fun _ => .require fun _ => ?_
    exact .tree rfl rfl rfl fun _ _ => trivial
  -- what is no operator may be `await`, and then what stands on the left
  refine .look (atWord_keeps _) fun _ => .ite (fun _ => .look get_keeps fun place =>
    .ite (fun _ => ?_) fun _ => ?_) fun _ => ?_
  · refine .go <| .step (advance_reads source) fun _ => .step h.unary.reads fun value =>
      .look (atMark_keeps _) fun _ => .require fun _ => ?_
    exact .tree rfl rfl rfl fun _ _ => trivial
  · refine .look (followsHere_keeps _) fun _ => .require fun _ => .typed <|
      .look get_keeps fun place => .never (by simp) ?_
    exact updated_along h
  · exact .typed <| .look get_keeps fun place => .never (by simp) (updated_along h)

/-! ## Operators between operands -/

/-- **The operators that follow an operand** are read into one tree with it. -/
theorem operandsRest_along (h : sub.ReadsTrees source) (above n : ℕ) :
    ∀ e, e.Opens source p.start → Along source (Way source true p [e])
      (operandsRest sub above p.start n e) (One source p) := by
  induction n with
  | zero => exact fun e _ => .refuse
  | succ n ih =>
    intro e he
    rw [operandsRest]
    -- without types the loop over `as` and `satisfies` finds nothing
    refine .bind (R := fun r q => r.1 = none ∧ Way source true p [e] q)
      (.loop (I := fun r q => r.1 = none ∧ Way source true p [e] q) (fun q hW => ⟨rfl, hW⟩)
        (fun r q hI => hI.2.sound) (fun r q hI => hI.2.sound) ?_ fun _ _ hI => hI)
      (fun r q hI => hI.2.sound) fun r => ?_
    · intro w r
      refine .of_imp (V := Way source true p [e]) ?_ fun q hI => hI.2
      refine .typed <| .look (atWord_keeps _) fun _ => .look onNewLine_keeps fun _ =>
        .never (by simp) ?_
      exact .pure fun q _ hW => ⟨rfl, hW⟩
    dsimp only
    split
    · rename_i a hsome
      refine .pure fun q _ hI => ?_
      rw [hsome] at hI
      cases hI.1
    refine .of_imp (V := Way source true p [e]) ?_ fun q hI => hI.2
    have hend : Along source (Way source true p [e]) (pure e : Parse Node) (One source p) :=
      .pure fun q _ hW => ⟨hW, he⟩
    refine .look token_keeps fun t => ?_
    split
    · exact hend
    · refine .ite (fun _ => hend) fun _ => .look get_keeps fun _ => .ite (fun _ => hend) fun _ => ?_
      refine .step (advance_reads source) fun _ => .step (h.operands _).reads fun right =>
        .require fun _ => ?_
      exact .nest rfl rfl rfl (fun _ _ => trivial) fun e he _ => ih e he

theorem operands_readsOne (h : sub.ReadsTrees source) (above : ℕ) :
    ReadsOne source (operands sub above) := by
  refine fun p => .here <| .look token_keeps fun t => ?_
  split
  · refine .one privateName_readsOne fun name hopens => ?_
    refine .look get_keeps fun _ => .look (atWord_keeps _) fun _ => .require fun _ => .value <|
      .look get_keeps fun place => operandsRest_along h _ _ _ hopens
  · exact .one h.unary fun left hopens =>
      .look get_keeps fun place => operandsRest_along h _ _ _ hopens

/-! ## Assignments -/

theorem yieldValue_readsOne (h : sub.ReadsTrees source) : ReadsOne source (yieldValue sub) := by
  have hvalue : ∀ p, Along source (Way source true p []) (do
      let value ← sub .assignment
      tree p.start (.yield false (some value))) (One source p) := fun p =>
    .step h.assignment.reads fun value => .tree rfl rfl rfl fun _ _ => trivial
  refine fun p => .here <| .go <| .step (expectWord_reads source _) fun _ =>
    .look onNewLine_keeps fun _ =>
    .ite (fun _ => .tree rfl rfl rfl fun _ _ => trivial) fun _ =>
    .step (eatMark_reads source _) fun _ =>
      .ite (fun _ => ?_) fun _ => .look token_keeps fun t => ?_
  · exact .step h.assignment.reads fun value => .tree rfl rfl rfl fun _ _ => trivial
  · split
    all_goals first
      | exact .tree rfl rfl rfl fun _ _ => trivial
      | exact hvalue p

/-- **The choice that may follow its test** is read into one tree with it. -/
theorem conditionalRest_along (h : sub.ReadsTrees source) (he : e.Opens source p.start) :
    Along source (Way source true p [e]) (conditionalRest sub p.start e) (One source p) := by
  refine .step (eatMark_reads source _) fun _ => .ite (fun _ => .pure fun q _ hW =>
    ⟨by simpa using hW, he⟩)
    fun _ => ?_
  have hbranch : ∀ allowsResult, Reads source true (do
      let yes ← within (fun c => { c with allowsIn := true, allowsResult := allowsResult })
        (sub .assignment)
      expectMark ":"
      return yes) fun a => [a] := fun allowsResult p =>
    .go <| .step (within_reads h.assignment.reads) fun yes =>
    .step (expectMark_reads source _) fun _ =>
      .pure fun q _ hW => hW
  refine .step (attempt_reads (hbranch true)) fun found => ?_
  dsimp only
  split
  · refine .value <| .step h.assignment.reads fun no => ?_
    exact .tree rfl rfl rfl fun _ _ => trivial
  · refine .step (hbranch false) fun yes => .step h.assignment.reads fun no => ?_
    exact .tree rfl rfl rfl fun _ _ => trivial

theorem atSimpleArrow_keeps : Keeps atSimpleArrow :=
  token_keeps.bind fun _ => (follows_keeps _).bind fun _ => .ite (.pure _) <|
    (atWord_keeps _).bind fun _ => .ite (foresee_keeps _) (.pure _)

theorem atTypedArrow_tells : Tells source atTypedArrow false :=
  fun p => .typed <| .look (atMark_keeps _) fun _ => .always rfl <| Tells.pure false p

/-- **What follows the operands says whether they are assigned to.** -/
theorem assignmentRest_along (h : sub.ReadsTrees source) : Along source (Eq p) (do
    let left ← sub (.operands 0)
    match ← token with
    | .mark op =>
      if assignOperators.contains op then
        let place ← target (op != "=") left
        advance
        let value ← sub .assignment
        tree p.start (.assign op place value)
      else conditionalRest sub p.start left
    | _ => return left) (One source p) := by
  refine .one (h.operands 0) fun left hopens => .look token_keeps fun t => ?_
  split
  · refine .ite (fun _ => ?_) fun _ => conditionalRest_along h hopens
    refine .bind (target_along _) (fun _ _ hQ => hQ.sound) fun place => ?_
    refine .step (advance_reads source) fun _ => .step h.assignment.reads fun value => ?_
    exact .tree rfl rfl rfl fun _ _ => trivial
  · exact .pure fun q _ hW => ⟨hW, hopens⟩

/-- What begins like an arrow function is one, if it can be read as one. -/
theorem arrowOrAssignment_along (h : sub.ReadsTrees source) : Along source (Eq p) (do
    if ← atSimpleArrow then return ← simpleArrow sub
    if (← atMark "(") || (← atWord "async") || (← atTypedArrow) then
      if let some node ← attempt (arrow sub) then return node
    let left ← sub (.operands 0)
    match ← token with
    | .mark op =>
      if assignOperators.contains op then
        let place ← target (op != "=") left
        advance
        let value ← sub .assignment
        tree p.start (.assign op place value)
      else conditionalRest sub p.start left
    | _ => return left) (One source p) := by
  have hleft := assignmentRest_along h (p := p)
  refine .look atSimpleArrow_keeps fun _ => .ite (fun _ => simpleArrow_readsOne h p) fun _ => ?_
  refine .look (atMark_keeps _) fun _ => .look (atWord_keeps _) fun _ =>
    .tells atTypedArrow_tells <|
    .ite (fun _ => ?_) fun _ => hleft
  exact .attempt (arrow_readsOne h p) (fun _ _ hQ => hQ.way.sound)
    (fun a => .pure fun q _ hQ => hQ)
    hleft

theorem assignment_readsOne (h : sub.ReadsTrees source) : ReadsOne source (assignment sub) := by
  intro p
  have hplain := arrowOrAssignment_along h (p := p)
  refine .here <| .look (atWord_keeps _) fun _ => .ite (fun _ => .look get_keeps fun place =>
    .ite (fun _ => yieldValue_readsOne h p) fun _ => ?_) fun _ => hplain
  exact .look (followsHere_keeps _) fun _ => .require fun _ => hplain

theorem expression_readsOne (h : sub.ReadsTrees source) : ReadsOne source (expression sub) := by
  refine fun p => .here <| .one h.assignment fun first hopens => .look (atMark_keeps _) fun _ =>
    .ite (fun _ => .pure fun q _ hW => ⟨hW, hopens⟩) fun _ => ?_
  have hmore : Reads source true (do advance; sub .assignment) fun a => [a] :=
    fun p => .go <| .step (advance_reads source) fun _ => .last h.assignment.reads
  refine .step (untilDone_reads ((atMark_keeps _).bind fun _ => .pure _) hmore) fun more => ?_
  exact .tree rfl rfl (by simp [Shape.children]) fun _ _ => trivial

end DepBundle.Syntax.Grammar
