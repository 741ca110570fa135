import DepBundle.Proofs.Syntax.Grammar.Expression
import DepBundle.Syntax.Grammar.Statement
/-!
# Grammar — statements lie in their text

Every reader of a statement other than an import or an export reads one tree that
opens where it begins (`statement_readsOne`). There are no declarations of types.
-/

namespace DepBundle.Syntax.Grammar

open Parse

variable {source : List Char} {p q t : Place} {nodes : List Node} {moved moved' : Bool}
  {sub : Grammar} {e : Node}

/-! ## Declarations -/

theorem declarator_reads (h : sub.ReadsTrees source) (kind : VariableKind) (declared : Bool) :
    Reads source true (declarator sub kind declared) fun a => [a] := by
  refine fun p => .here <| .go <| .step h.pattern.reads fun target => .typed <|
    .look onNewLine_keeps fun _ =>
    .never rfl <| .tells (annotated_tells _ _) <| .step (eatMark_reads source _) fun _ =>
      .ite (fun _ => ?_) fun _ => ?_
  · exact .step h.assignment.reads fun value => .node rfl rfl rfl fun _ _ => trivial
  · refine .look get_keeps fun place => .require fun _ => ?_
    exact .node rfl rfl rfl fun _ _ => trivial

theorem variableList_readsOne (h : sub.ReadsTrees source) (kind : VariableKind) (declared : Bool) :
    ReadsOne source (variableList sub kind declared) := by
  have hmore : Reads source true (do advance; declarator sub kind declared) fun a => [a] :=
    fun p => .go <| .step (advance_reads source) fun _ => .last (declarator_reads h _ _)
  refine fun p => .here <| .go <| .step (advance_reads source) fun _ => ?_
  refine .ite (fun _ => .step (advance_reads source) fun _ => ?_) fun _ => ?_
  all_goals
    refine .step (declarator_reads h _ _) fun first =>
      .step (untilDone_reads ((atMark_keeps _).bind fun _ => .pure _) hmore) fun more =>
        .ite (fun _ => .step (semicolon_reads source) fun _ => ?_) fun _ => ?_
  all_goals
    refine .look get_keeps fun place => ?_
    exact .tree rfl rfl (by simp [Shape.children]) fun _ _ => trivial

theorem variableKind?_keeps : Keeps variableKind? := by
  have husing : Keeps atUsing :=
    (atWord_keeps _).bind fun _ => (followsHere_keeps _).bind fun _ => .pure _
  refine (atWord_keeps _).bind fun _ => .ite (.pure _) <| (atWord_keeps _).bind fun _ =>
    .ite (.pure _) <|
    husing.bind fun _ => .ite (.pure _) <| (atWord_keeps _).bind fun _ =>
      (followsHere_keeps _).bind fun _ => .ite ?_ (.pure _)
  exact (foresee_keeps _).bind fun _ => .ite (.pure _) (.pure _)

/-! ## Loops and choices -/

theorem condition_reads (h : sub.ReadsTrees source) :
    Reads source true (condition sub) fun a => [a] :=
  fun _ => .go <| .step (expectMark_reads source _) fun _ => .step h.expression.reads fun _ =>
    .step (expectMark_reads source _) fun _ => .pure fun _ _ hW => hW

theorem block_readsOne (h : sub.ReadsTrees source) : ReadsOne source (block sub) := by
  refine fun p => .here <| .go <| .step (expectMark_reads source _) fun _ =>
    .step (untilDone_reads (atMark_keeps _) (h.statement false)) fun items =>
      .step (expectMark_reads source _) fun _ => ?_
  exact .tree rfl rfl (by simp [Shape.children]) fun _ _ => trivial

/-- **The rest of a loop with three parts**, begun by the first one if there is one. -/
theorem loopRest_along (h : sub.ReadsTrees source) (first : Option Node) :
    Along source (Way source true p first.toList) (loopRest sub p.start first) (One source p) := by
  refine .step (expectMark_reads source _) fun _ => .look (atMark_keeps _) fun _ => ?_
  refine .ite (fun _ => .value ?_) fun _ => .step (some_reads h.expression.reads) fun test => ?_
  all_goals
    refine .step (expectMark_reads source _) fun _ => .look (atMark_keeps _) fun _ => ?_
    refine .ite (fun _ => .value ?_) fun _ => .step (some_reads h.expression.reads) fun update => ?_
    all_goals
      refine .step (expectMark_reads source _) fun _ => .step (h.statement true) fun body => ?_
      exact .tree rfl rfl (by simp [Shape.children]) fun _ _ => trivial

/-- **The rest of a loop** over the items or the keys of a value. -/
theorem iterationRest_along (h : sub.ReadsTrees source) (isAwait : Bool) (target : Node) :
    Along source (Way source true p [target]) (iterationRest sub p.start isAwait target)
      (One source p) := by
  refine .step (eatWord_reads source _) fun _ => .ite (fun _ => ?_) fun _ => .require fun _ =>
    .step (expectWord_reads source _) fun _ => ?_
  · refine .step h.assignment.reads fun items => .step (expectMark_reads source _) fun _ =>
      .step (h.statement true) fun body => ?_
    exact .tree rfl rfl rfl fun _ _ => trivial
  · refine .step h.expression.reads fun object => .step (expectMark_reads source _) fun _ =>
      .step (h.statement true) fun body => ?_
    exact .tree rfl rfl rfl fun _ _ => trivial

/-- The variables of a loop are read as those of a declaration are. -/
theorem variablesOf_along (h : sub.ReadsTrees source) (kind : Option VariableKind) :
    Along source (Eq p)
      (match kind with
       | none => return none
       | some kind =>
         some <$> within (fun c => { c with allowsIn := false }) (variableList sub kind false))
      fun o q => Way source false p o.toList q := by
  split
  · exact .go <| .pure fun q _ hW => hW
  · exact (some_reads (within_reads (variableList_readsOne h _ _).reads) p).mono fun _ _ hQ =>
      hQ.forget

theorem loopVariables?_reads (h : sub.ReadsTrees source) :
    Reads source false (loopVariables? sub) Option.toList := by
  intro p
  refine .look (atWord_keeps _) fun _ => .look (follows_keeps _) fun _ =>
    .look (follows_keeps _) fun _ =>
    .look (foresee_keeps _) fun _ => .ite
      (fun _ => .value (variablesOf_along h (some .letKind))) fun _ => ?_
  exact .look variableKind?_keeps (variablesOf_along h)

theorem loop_readsOne (h : sub.ReadsTrees source) : ReadsOne source (loop sub) := by
  intro p
  refine .here <| .go <| .step (expectWord_reads source _) fun _ => .look (atWord_keeps _) fun _ =>
    .look get_keeps fun place => ?_
  refine .ite (fun _ => .step (advance_reads source) fun _ => .value ?_) fun _ => .value ?_
  all_goals
    refine .step (expectMark_reads source _) fun _ => .look (atMark_keeps _) fun _ =>
      .ite (fun _ => .require fun _ => loopRest_along h none) fun _ =>
        .step (loopVariables?_reads h) fun declared => ?_
    cases declared with
    | some declared =>
      refine .look (atWord_keeps _) fun _ => .look (atWord_keeps _) fun _ => .ite (fun _ => ?_)
        fun _ => .require fun _ => ?_
      · exact iterationRest_along h _ _
      · exact loopRest_along h (some _)
    | none =>
      refine .look (atWord_keeps _) fun _ => .look (follows_keeps _) fun _ =>
        .look (atWord_keeps _) fun _ =>
        .look (follows_keeps _) fun _ => .step (within_reads h.expression.reads) fun first =>
          .look (atWord_keeps _) fun _ => .look (atWord_keeps _) fun _ =>
          .ite (fun _ => ?_) fun _ =>
            .require fun _ => ?_
      · refine .require fun _ => .bind (target_along false)
          (fun _ _ hQ => hQ.sound) fun target => ?_
        exact iterationRest_along h _ _
      · exact loopRest_along h (some _)

theorem choose_readsOne (h : sub.ReadsTrees source) : ReadsOne source (choose sub) := by
  refine fun p => .here <| .go <| .step (expectWord_reads source _) fun _ =>
    .step (condition_reads h)
    fun test => .step (h.statement true) fun yes => .step (eatWord_reads source _) fun _ => ?_
  refine .ite (fun _ => .step (some_reads (h.statement true)) fun no => ?_) fun _ => .value ?_
  all_goals exact .tree rfl rfl (by simp [Shape.children]) fun _ _ => trivial

theorem case_reads (h : sub.ReadsTrees source) : Reads source true (case sub) fun a => [a] := by
  have hdone : Keeps (do return (← atWord "case") || (← atWord "default") || (← atMark "\x7d")) :=
    (atWord_keeps _).bind fun _ => (atWord_keeps _).bind fun _ => (atMark_keeps _).bind fun _ =>
    .pure _
  have htest : Reads source true (do expectWord "case"; return some (← sub .expression))
      Option.toList :=
    fun p => .go <| .step (expectWord_reads source _) fun _ => .step h.expression.reads fun _ =>
      .pure fun _ _ hW => hW
  refine fun p => .here <| .go <| .step (eatWord_reads source _) fun _ => ?_
  refine .ite (fun _ => .value ?_) fun _ => .step htest fun test => ?_
  all_goals
    refine .step (expectMark_reads source _) fun _ =>
      .step (untilDone_reads hdone (h.statement false)) fun items => ?_
    exact .node rfl rfl (by simp [Shape.children]) fun _ _ => trivial

theorem handler_readsOne (h : sub.ReadsTrees source) : ReadsOne source (handler sub) := by
  refine fun p => .here <| .go <| .step (expectWord_reads source _) fun _ =>
    .step (eatMark_reads source _) fun _ => ?_
  refine .ite (fun _ => .look (fun _ _ _ hget => ?_) fun t => .step h.pattern.reads fun target =>
    .tells (annotated_tells _ _) <| .step (expectMark_reads source _) fun _ =>
    .value ?_) fun _ => .value ?_
  · cases hget
    rfl
  all_goals
    refine .step (block_readsOne h).reads fun body => ?_
    exact .tree rfl rfl (by simp [Shape.children]) fun _ _ => trivial

theorem attempted_readsOne (h : sub.ReadsTrees source) : ReadsOne source (attempted sub) := by
  refine fun p => .here <| .go <| .step (expectWord_reads source _) fun _ =>
    .step (block_readsOne h).reads fun body => .look (atWord_keeps _) fun _ => ?_
  refine .ite (fun _ => .step (some_reads (handler_readsOne h).reads) fun caught => ?_) fun _ =>
    .value ?_
  all_goals
    refine .step (eatWord_reads source _) fun _ => ?_
    refine .ite (fun _ => .step (some_reads (block_readsOne h).reads) fun last => ?_) fun _ =>
      .value ?_
    all_goals
      refine .require fun _ => ?_
      exact .tree rfl rfl (by simp [Shape.children]) fun _ _ => trivial

theorem jump_readsOne {shape : Option Node → Shape Node} (hplain : ∀ o, (shape o).carries = false)
    (hchildren : ∀ o, (shape o).children = o.toList)
    (hsits : ∀ span o, Node.Sits source span (shape o)) :
    ReadsOne source (jump shape) := by
  refine fun p => .here <| .go <| .step (advance_reads source) fun _ =>
    .look mayEnd_keeps fun _ => ?_
  refine .ite (fun _ => .value ?_) fun _ =>
    .step (some_reads labelName_readsOne.reads) fun label => ?_
  all_goals
    refine .step (semicolon_reads source) fun _ => ?_
    exact .tree rfl (hplain _) (by simp [hchildren]) fun _ _ => hsits _ _

/-! ## Statements -/

theorem atTypeDeclaration_tells : Tells source atTypeDeclaration false :=
  fun p => .typed <| .always rfl <| Tells.pure false p

theorem plainStatement_readsOne (h : sub.ReadsTrees source) :
    ReadsOne source (plainStatement sub) := by
  refine fun p => .here <| .go <| .step h.expression.reads fun value => ?_
  have hplain : Along source (Way source true p [value]) (do
      semicolon
      tree p.start (.expression value)) (One source p) :=
    .step (semicolon_reads source) fun _ => .tree rfl rfl rfl fun _ _ => trivial
  split
  · rename_i label hreference
    refine .step (eatMark_reads source _) fun _ => .ite (fun _ => ?_) fun _ => hplain
    -- the label stands where the reference does
    refine .of_imp (V := Way source true p [⟨value.span, .word label⟩]) ?_ fun q hW => ?_
    · exact .step (h.statement true) fun body => .tree rfl rfl rfl fun _ _ => trivial
    · have hsits := (hW.lies value (List.mem_singleton_self value)).stands.sits
      rw [hreference] at hsits
      exact hW.relabel rfl rfl hsits
  · exact hplain

theorem letStatement_readsOne (h : sub.ReadsTrees source) (alone : Bool) :
    ReadsOne source (letStatement sub alone) :=
  fun p => .look (foresee_keeps _) fun _ => .ite (fun _ => plainStatement_readsOne h p) fun _ =>
    .require fun _ => variableList_readsOne h _ _ p

theorem keywordStatement_readsOne (h : sub.ReadsTrees source) (alone : Bool) (w : String) :
    ReadsOne source (keywordStatement sub alone w) := by
  intro p
  unfold keywordStatement
  refine .here ?_
  -- one reader for each keyword, in the order of the definition
  split
  · exact choose_readsOne h p
  · exact loop_readsOne h p
  · refine .go <| .step (advance_reads source) fun _ => .step (condition_reads h) fun test =>
      .step (h.statement true) fun body => ?_
    exact .tree rfl rfl rfl fun _ _ => trivial
  · refine .go <| .step (advance_reads source) fun _ => .step (h.statement true) fun body =>
      .step (expectWord_reads source _) fun _ => .step (condition_reads h) fun test =>
        .step (eatMark_reads source _) fun _ => ?_
    exact .tree rfl rfl rfl fun _ _ => trivial
  · refine .go <| .step (advance_reads source) fun _ => .step (condition_reads h) fun subject =>
      .step (expectMark_reads source _) fun _ =>
      .step (untilDone_reads (atMark_keeps _) (case_reads h))
        fun cases => .step (expectMark_reads source _) fun _ => ?_
    exact .tree rfl rfl (by simp [Shape.children]) fun _ _ => trivial
  · exact attempted_readsOne h p
  · refine .go <| .step (advance_reads source) fun _ => .look onNewLine_keeps fun _ =>
      .require fun _ =>
      .step h.expression.reads fun value => .step (semicolon_reads source) fun _ => ?_
    exact .tree rfl rfl rfl fun _ _ => trivial
  · refine .look get_keeps fun place => .require fun _ => .go <|
      .step (advance_reads source) fun _ =>
      .look mayEnd_keeps fun _ => ?_
    refine .ite (fun _ => .value ?_) fun _ => .step (some_reads h.expression.reads) fun value => ?_
    all_goals
      refine .step (semicolon_reads source) fun _ => ?_
      exact .tree rfl rfl (by simp [Shape.children]) fun _ _ => trivial
  · exact jump_readsOne (fun _ => rfl) (fun _ => rfl) (by intros; trivial) p
  · exact jump_readsOne (fun _ => rfl) (fun _ => rfl) (by intros; trivial) p
  · refine .go <| .step (advance_reads source) fun _ => .step (condition_reads h) fun object =>
      .step (h.statement true) fun body => ?_
    exact .tree rfl rfl rfl fun _ _ => trivial
  · refine .go <| .step (advance_reads source) fun _ => .step (semicolon_reads source) fun _ => ?_
    exact .tree rfl rfl rfl fun _ _ => trivial
  · exact .require fun _ => class_along h _ _
  · exact letStatement_readsOne h _ p
  · exact plainStatement_readsOne h p

theorem statement_readsOne (h : sub.ReadsTrees source) (alone : Bool) :
    ReadsOne source (statement sub alone) := by
  refine fun p => .sound fun hp => .here <| .token ?_
  generalize htoken : p.token = t
  split
  · exact block_readsOne h p
  · exact leaf_along rfl rfl fun _ _ => trivial
  · refine .require fun _ => .bind (decorators_along h) (fun _ _ hQ => hQ.1.sound) fun items =>
      .typed <| .look (atWord_keeps _) fun _ => .never rfl <| .each fun t _ ht => ?_
    exact decoratedRest_along h hp htoken ht _ _
  · refine .tells atTypeDeclaration_tells <| .never rfl <| .look atFunction_keeps fun _ =>
      .ite (fun _ => ?_)
      fun _ => .look variableKind?_keeps fun kind => ?_
    · refine .bind (function_readsOne h _ _ p) (fun _ _ hQ => hQ.way.sound) fun node => ?_
      split
      · exact .require fun _ => .pure fun q _ hQ => hQ
      · exact .pure fun q _ hQ => hQ
    · split
      · exact .require fun _ => variableList_readsOne h _ _ p
      · exact keywordStatement_readsOne h _ _ p
  · exact plainStatement_readsOne h p

end DepBundle.Syntax.Grammar
