import DepBundle.Proofs.Graph.Shaken
import DepBundle.Proofs.Syntax.Layout
/-!
# Modules — requests that pass all exports on

A module passes on all exports of another by a statement, or by assigning
what a call of `require` gives to its exports. Either way it asks for the
other module at once: an `import()` never passes anything on
(`isStatic_of_mem_records`).
-/

namespace DepBundle.Module

open Syntax

variable {record : Record}

/-- Whether a request makes all exports of the target those of the module. -/
def Record.PassesOn (record : Record) : Prop := record.form = .star ∨ record.isWholesale

/-! ## Statements -/

theorem kind_declared? {isReferenced : String → Bool} {node : Node} {d : Declared}
    (h : declared? isReferenced node = some d) : d.record.kind = .statement := by
  rw [declared?] at h
  split at h
  all_goals cases h
  all_goals rfl

/-! ## Calls -/

/-- A call that passes all exports on asks for the target at once. -/
def Finding.AsksAtOnce : Finding → Prop
  | .requested _ _ kind isWholesale => isWholesale → kind.isStatic
  | _ => True

/-- What is found along a tree are such calls, whatever names mean there. -/
def FindsAtOnce (find : Names → List Finding) : Prop :=
  ∀ names, ∀ finding ∈ find names, finding.AsksAtOnce

theorem asksAtOnce_of_mem_below {shape : Shape (Node × (Names → List Finding))} {names : Names}
    (h : ∀ below ∈ shape.children, FindsAtOnce below.2) :
    ∀ finding ∈ findingsBelow names shape, finding.AsksAtOnce := by
  intro finding hfinding
  obtain ⟨⟨inside, below⟩, hplaced, hbelow⟩ := List.mem_flatMap.1 hfinding
  have hmem : below ∈ shape.children := by
    rw [← Shape.map_snd_placed]
    exact List.mem_map_of_mem hplaced
  exact h below hmem _ finding hbelow

theorem asksAtOnce_of_mem_exported {names : List String} {finding : Finding}
    (h : finding ∈ names.map Finding.exported) : finding.AsksAtOnce := by
  obtain ⟨name, -, rfl⟩ := List.mem_map.1 h
  trivial

theorem asksAtOnce_of_mem_assigned {names : Names} {target value : Node} {finding : Finding}
    (h : finding ∈ assignedExports names target value) : finding.AsksAtOnce := by
  rw [assignedExports] at h
  split at h
  · cases h
  · split at h
    · split at h
      · cases h
      · obtain rfl := List.mem_singleton.1 h
        trivial
    · split at h
      · exact asksAtOnce_of_mem_exported h
      · cases h

/-- **One step along a tree**, by what it looks at. Only assigning to the
exports makes a request that passes all on, and that is a call of
`require`. -/
theorem findsAtOnce_step (span : Span) (shape : Shape (Node × (Names → List Finding)))
    (h : ∀ below ∈ shape.children, FindsAtOnce below.2) : FindsAtOnce (findingStep span shape) := by
  intro names finding hfinding
  have hbelow : ∀ finding ∈ findingsBelow names shape, finding.AsksAtOnce :=
    asksAtOnce_of_mem_below h
  -- by the forms in the order of the definition, the last being all others
  unfold findingStep at hfinding
  split at hfinding
  · rename_i name
    obtain ⟨access, -, rfl⟩ : ∃ access, _ ∧ Finding.replaced span access = finding := by
      simpa using hfinding
    trivial
  · rename_i value find
    have hvalue : FindsAtOnce find := h (value, find) (List.mem_singleton_self _)
    split at hfinding
    · split at hfinding
      · obtain rfl := List.mem_singleton.1 hfinding
        trivial
      · exact hvalue names finding hfinding
    · exact hvalue names finding hfinding
  · rename_i optional callee find typeArgs args
    split at hfinding
    · obtain rfl := List.mem_singleton.1 hfinding
      exact fun hall => absurd hall Bool.false_ne_true
    · rcases List.mem_append.1 hfinding with hdefined | hcall
      · rw [Option.toList_map] at hdefined
        exact asksAtOnce_of_mem_exported hdefined
      · split at hcall
        · split at hcall
          · rcases List.mem_cons.1 hcall with rfl | hcall
            · trivial
            · obtain ⟨arg, harg, hcall⟩ := List.mem_flatMap.1 hcall
              refine h arg ?_ names finding hcall
              simp [Shape.children, harg]
          · exact hbelow finding hcall
        · exact hbelow finding hcall
  · split at hfinding
    · obtain rfl := List.mem_singleton.1 hfinding
      exact fun hall => absurd hall Bool.false_ne_true
    · exact hbelow finding hfinding
  · dsimp only at hfinding
    split at hfinding
    · obtain rfl := List.mem_singleton.1 hfinding
      exact fun _ => rfl
    · rcases List.mem_append.1 hfinding with hassigned | hinside
      · exact asksAtOnce_of_mem_assigned hassigned
      · exact hbelow finding hinside
  · exact hbelow finding hfinding

theorem findsAtOnce_findings (node : Node) : FindsAtOnce (findings node) :=
  Node.para_induction findsAtOnce_step node

/-! ## Programs -/

/-- What is found at a statement is found along it, or along what it exports. -/
theorem findings_localOf_cases {source : List Char} {names : Names} {node : Node}
    {finding : Finding} (h : finding ∈ (localOf source names node).findings) :
    finding ∈ findings node names ∨
      ∃ value, (node.shape = .exportDecl value ∨ node.shape = .exportDefault value) ∧
        finding ∈ findings value names := by
  rw [localOf] at h
  split at h
  · cases h
  · cases h
  · cases h
  · cases h
  · rename_i value hshape
    exact .inr ⟨value, .inl hshape, h⟩
  · rename_i value hshape
    dsimp only at h
    split at h
    · cases h
    · exact .inr ⟨value, .inr hshape, h⟩
  · exact .inl h

theorem asksAtOnce_of_mem_local {source : List Char} {names : Names} {node : Node}
    {finding : Finding} (h : finding ∈ (localOf source names node).findings) :
    finding.AsksAtOnce := by
  rcases findings_localOf_cases h with h | ⟨value, -, h⟩
  · exact findsAtOnce_findings node names finding h
  · exact findsAtOnce_findings value names finding h

/-- **What passes all exports on asks for them at once.** -/
theorem isStatic_of_mem_records {source : String} {program : Program} {shaken : Bool}
    (h : record ∈ (Scan.ofProgram source program shaken).records) (hall : record.PassesOn) :
    record.kind.isStatic := by
  rw [records_ofProgram] at h
  rcases List.mem_append.1 h with hdeclared | hcalled
  · obtain ⟨d, hd, rfl⟩ := List.mem_map.1 hdeclared
    obtain ⟨node, -, hnode⟩ := List.mem_filterMap.1 hd
    rw [kind_declared? hnode]
    rfl
  · obtain ⟨finding, hfinding, hrecord⟩ := List.mem_filterMap.1 hcalled
    obtain ⟨l, hl, hfinding⟩ := List.mem_flatMap.1 hfinding
    obtain ⟨node, -, rfl⟩ := List.mem_map.1 hl
    have hasks := asksAtOnce_of_mem_local hfinding
    cases finding with
    | requested span specifier kind isWholesale =>
      obtain rfl := Option.some.inj hrecord
      rcases hall with hstar | hwholesale
      · cases hstar
      · exact hasks hwholesale
    | replaced => cases hrecord
    | exported => cases hrecord

end DepBundle.Module
