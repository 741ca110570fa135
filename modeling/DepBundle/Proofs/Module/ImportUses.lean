import DepBundle.Proofs.Module.Preamble
import DepBundle.Proofs.Module.References
/-!
# Modules — references to import bindings

A reference to an import binding is settled where it is replaced by code that reads
the export from the variable of its record, or stands in text that is removed or
replaced as a whole. All are, but those in an `import()` of the host, which stays as
it is (`settled_iff`). And every variable that the body of a module mentions is
declared by one line of its preamble (`Mentions.declaredOnce`).
-/

namespace DepBundle.Module

open Syntax

variable {source : String} {program : Program} {treeshake : Bool} {names : Names}
  {node c d : Node} {use : Use} {name text specifier : String} {span : Span} {kind : ImportKind}
  {isWholesale : Bool} {r : ℕ} {imported : ImportedName} {record : Record} {scan : Scan}
  {destination : Destination} {destinations : List Destination}

/-- **The references of a program to import bindings,** as the trees around them make
them, with what they read. -/
def importUses (program : Program) (treeshake : Bool) : List (Use × ℕ × ImportedName) :=
  (statementsOf program).flatMap fun node =>
    (uses node (topNames program treeshake)).filterMap fun (names, use) =>
      (names.import? use.name).map (use, ·)

theorem mem_importUses_iff : (use, r, imported) ∈ importUses program treeshake ↔
    ∃ node ∈ statementsOf program, ∃ names, (names, use) ∈ uses node (topNames program treeshake) ∧
      names.import? use.name = some (r, imported) := by
  simp [importUses, List.mem_flatMap, List.mem_filterMap]

/-! ## What they read -/

theorem import?_eq_some_iff : names.import? name = some (r, imported) ↔
    name ∉ names.shadowed ∧ names.imports.lookup name = some (r, imported) := by
  rw [Names.import?]
  split_ifs with h
  · simp_all
  · simp_all

/-- From the record of a name that is referred to something is read. -/
theorem exists_declared_of_place (hnode : node ∈ statementsOf program)
    (hplace : (names, d) ∈ places node (topNames program treeshake))
    (hshape : d.shape = .reference name) (hreads : names.import? name = some (r, imported)) :
    ∃ declared, (declaredIn program treeshake)[r]? = some declared ∧
      declared.record.kind = .statement ∧ declared.record.isPlain = false := by
  obtain ⟨hfree, hlookup⟩ := import?_eq_some_iff.1 hreads
  rw [imports_of_mem_places hplace] at hlookup
  obtain ⟨declared, hdeclared, hbinding⟩ := exists_declared_of_lookup hlookup
  obtain ⟨statement, -, hstatement⟩ := exists_statement_of_declaredIn hdeclared
  refine ⟨declared, hdeclared, kind_declared? hstatement, isPlain_of_binding hstatement hbinding ?_⟩
  have hname := (mem_freeNames_of_mem_places hplace hshape hfree).1
  rw [refersTo, List.contains_iff_mem.2 (List.mem_flatMap.2 ⟨node, hnode, hname⟩)]
  exact Bool.or_true _

/-! ## Names at the top -/

/-- The name that a specifier binds is the one that it spells. -/
theorem clauseText_mem_boundNames (h : node.IsBinding) : node.clauseText ∈ node.boundNames := by
  obtain ⟨span, shape⟩ := node
  obtain ⟨name, rfl⟩ := h
  rw [Node.boundNames, Node.para_mk]
  exact List.mem_singleton_self name

/-- What a statement binds is a name that it declares. -/
theorem mem_lexicalNames_of_binding {chars : List Char} {isReferenced : String → Bool}
    {declared : Declared} (hlies : node.Lies chars)
    (h : declared? isReferenced node = some declared)
    (hbinding : (name, imported) ∈ declared.bindings) : name ∈ node.lexicalNames := by
  obtain ⟨span, shape⟩ := node
  rw [declared?] at h
  split at h
  · rename_i specifiers _ _ hshape
    rw [Node.shape] at hshape
    subst hshape
    obtain rfl := Option.some.inj h
    obtain ⟨item, hitem, heq⟩ := List.mem_map.1 hbinding
    cases heq
    obtain ⟨specifier, hspecifier, hitem⟩ := List.mem_filterMap.1 hitem
    have hsits := (hlies.child (c := specifier) (List.mem_append_left _ hspecifier)).stands.sits
    -- a specifier declares the name that it binds
    have hname : item.localName ∈ specifier.lexicalNames := by
      obtain ⟨at', inner⟩ := specifier
      rw [Node.shape] at hsits
      dsimp only [Node.shape] at hitem
      split at hitem
      all_goals cases hitem
      all_goals
        rw [Node.lexicalNames, Node.para_mk]
        exact clauseText_mem_boundNames hsits
    rw [Node.lexicalNames, Node.para_mk]
    refine List.mem_flatMap.2 ⟨_, List.mem_map_of_mem hspecifier, hname⟩
  all_goals cases h
  all_goals cases hbinding

/-- The names that a program binds to imports are declared at its top. -/
theorem topNames_declares {chars : List Char} (h : program.tree.Lies chars) :
    (topNames program treeshake).Declares := by
  intro name hlookup
  obtain ⟨⟨r, imported⟩, hlookup⟩ := Option.isSome_iff_exists.1 hlookup
  obtain ⟨declared, hdeclared, hbinding⟩ := exists_declared_of_lookup hlookup
  obtain ⟨statement, hstatement, hdeclares⟩ := exists_statement_of_declaredIn hdeclared
  rw [topNames]
  unfold statementsOf at hstatement
  split at hstatement
  · rename_i items hshape
    rw [hshape]
    have hchild : statement ∈ program.tree.children := by
      rw [Node.children, hshape]
      exact hstatement
    have hname := mem_lexicalNames_of_binding (h.child hchild) hdeclares hbinding
    exact List.mem_append_right _ (List.mem_flatMap.2 ⟨statement, hstatement, hname⟩)
  · cases hstatement

/-! ## Edits -/

theorem mem_findingEdits_of_replaced {found : List Finding} (n : ℕ)
    (h : .replaced span text ∈ found) : .replace span text ∈ findingEdits n found := by
  induction found generalizing n with
  | nil => cases h
  | cons finding found ih =>
    rcases List.mem_cons.1 h with rfl | hmem
    · exact List.mem_cons_self ..
    · cases finding with
      | replaced => exact List.mem_cons_of_mem _ (ih n hmem)
      | requested => exact List.mem_cons_of_mem _ (ih (n + 1) hmem)
      | exported => exact ih n hmem

/-- Every request that is found is edited, and has its record. -/
theorem exists_request_of_requested {found : List Finding} (n : ℕ)
    (h : .requested span specifier kind isWholesale ∈ found) :
    ∃ i, .request span (n + i) ∈ findingEdits n found ∧
      (found.filterMap requestRecord?)[i]? =
        some ⟨specifier, kind, .expression, false, isWholesale⟩ := by
  induction found generalizing n with
  | nil => cases h
  | cons finding found ih =>
    rcases List.mem_cons.1 h with rfl | hmem
    · exact ⟨0, List.mem_cons_self .., rfl⟩
    · cases finding with
      | replaced =>
        obtain ⟨i, hedit, hrecord⟩ := ih n hmem
        exact ⟨i, List.mem_cons_of_mem _ hedit, hrecord⟩
      | requested =>
        obtain ⟨i, hedit, hrecord⟩ := ih (n + 1) hmem
        refine ⟨i + 1, List.mem_cons_of_mem _ ?_, hrecord⟩
        rwa [Nat.add_assoc, Nat.add_comm 1 i] at hedit
      | exported => exact ih n hmem

theorem mem_edits_of_removed (hnode : node ∈ statementsOf program)
    (h : .remove span ∈ (localOf source.toList (topNames program treeshake) node).edits ∨
      ∃ declared, declared? (refersTo program treeshake) node = some declared ∧
        declared.span = span) :
    .remove span ∈ (Scan.ofProgram source program treeshake).edits := by
  rw [edits_ofProgram]
  refine List.mem_append_left _ ?_
  rcases h with h | ⟨declared, hdeclared, rfl⟩
  · exact List.mem_append_right _ (List.mem_flatMap.2 ⟨node, hnode, h⟩)
  · refine List.mem_append_left _ (List.mem_map_of_mem ?_)
    rw [declaredIn_eq]
    exact List.mem_filterMap.2 ⟨node, hnode, hdeclared⟩

/-! ## What becomes of them -/

/-- An export makes the references of what it exports. -/
theorem uses_of_export {value : Node}
    (hshape : node.shape = .exportDecl value ∨ node.shape = .exportDefault value) (names : Names) :
    uses node names = uses value names := by
  have huse : use? node = none := by
    unfold use?
    rcases hshape with hshape | hshape <;> rw [hshape]
  have hplaced : node.shape.placed = [(true, value)] := by
    rcases hshape with hshape | hshape <;> rw [hshape] <;> rfl
  have hframe : node.shape.frame = [] := by
    rcases hshape with hshape | hshape <;> rw [hshape] <;> rfl
  rw [uses_eq, others, huse, hplaced, Option.toList_none, List.map_nil, List.nil_append,
    if_neg (by simp), List.flatMap_singleton]
  exact congrArg (uses value) (Names.within_of_frame hframe true)

/-- A statement is removed as a whole, or what is found there is found along one
tree, which makes all of its references. -/
theorem removed_or_along (hlies : node.Lies source.toList) (hnode : node ∈ statementsOf program) :
    (node.shape.carries = false ∧
      .remove node.span ∈ (Scan.ofProgram source program treeshake).edits) ∨
    ∃ c, c.Lies source.toList ∧
      uses node (topNames program treeshake) = uses c (topNames program treeshake) ∧
      (localOf source.toList (topNames program treeshake) node).findings =
        findings c (topNames program treeshake) := by
  have hdeclared : (declared? (refersTo program treeshake) node).isSome →
      .remove node.span ∈ (Scan.ofProgram source program treeshake).edits := by
    intro hsome
    obtain ⟨declared, hdeclared⟩ := Option.isSome_iff_exists.1 hsome
    exact mem_edits_of_removed hnode (Or.inr ⟨declared, hdeclared, span_declared? hdeclared⟩)
  -- a declaration goes as a whole, an export leaves what it exports
  cases hshape : node.shape with
  | importDecl => exact Or.inl ⟨rfl, hdeclared (by rw [declared?, hshape]; rfl)⟩
  | exportAll _ exported =>
    exact Or.inl ⟨rfl, hdeclared (by rw [declared?, hshape]; cases exported <;> rfl)⟩
  | exportFrom => exact Or.inl ⟨rfl, hdeclared (by rw [declared?, hshape]; rfl)⟩
  | exportNames =>
    refine Or.inl ⟨rfl, mem_edits_of_removed hnode (Or.inl ?_)⟩
    rw [localOf, hshape]
    exact List.mem_singleton_self _
  | exportDecl value =>
    exact Or.inr ⟨value, hlies.child (mem_children_of_export (.inl hshape)),
      uses_of_export (.inl hshape) _, by rw [localOf, hshape]⟩
  | exportDefault value =>
    have hvalue : value.Lies source.toList := hlies.child (mem_children_of_export (.inr hshape))
    refine Or.inr ⟨value, hvalue, uses_of_export (.inr hshape) _, ?_⟩
    rw [localOf, hshape]
    exact if_neg (by simp [declaresType_of_lies hvalue])
  | _ => exact Or.inr ⟨node, hlies, rfl, by rw [localOf, hshape]⟩

/-- **A reference to an import binding** is replaced, or it stands in an `import()` that
names its target or in a statement that is removed. -/
theorem found_or_removed {access : String} (hlies : program.tree.Lies source.toList)
    (hnode : node ∈ statementsOf program)
    (h : (names, use) ∈ uses node (topNames program treeshake))
    (hreads : names.access? use.name = some access) :
    .replaced use.stretch (use.text access) ∈ foundIn source program treeshake ∨
      InImport (foundIn source program treeshake) use.stretch ∨
        ∃ span, .remove span ∈ (Scan.ofProgram source program treeshake).edits ∧
          span.start ≤ use.stretch.start ∧ use.stretch.stop ≤ span.stop := by
  have hlies' : node.Lies source.toList := hlies.child ((statementsOf_sublist program).subset hnode)
  rcases removed_or_along hlies' hnode with ⟨hcarries, hedit⟩ | ⟨c, hc, huses, hlocal⟩
  · have hinside := stretch_inside hlies' h
    rw [node.begins_of_not_carries hcarries] at hinside
    exact Or.inr (Or.inr ⟨node.span, hedit, hinside.1, hinside.2.2⟩)
  · have hmem : ∀ finding ∈ findings c (topNames program treeshake),
        finding ∈ foundIn source program treeshake := fun finding hfinding =>
      List.mem_flatMap.2 ⟨node, hnode, hlocal ▸ hfinding⟩
    rcases found_of_use hc (topNames_declares hlies) (huses ▸ h) hreads with hfound | himport
    · exact Or.inl (hmem _ hfound)
    · exact Or.inr (Or.inl (himport.mono hmem))

/-- **Only references to import bindings** are replaced. -/
theorem exists_importUse_of_replaced (h : .replaced span text ∈ foundIn source program treeshake) :
    ∃ use r imported, (use, r, imported) ∈ importUses program treeshake ∧ span = use.stretch ∧
      text = use.text (imported.access (recordBinding r)) := by
  obtain ⟨node, hnode, h⟩ := List.mem_flatMap.1 h
  have huse : ∃ names use access, (names, use) ∈ uses node (topNames program treeshake) ∧
      names.access? use.name = some access ∧ span = use.stretch ∧ text = use.text access := by
    rcases findings_localOf_cases h with h | ⟨value, hshape, h⟩
    · exact exists_use_of_replaced h
    · rw [uses_of_export hshape]
      exact exists_use_of_replaced h
  obtain ⟨names, use, access, huse, hreads, hspan, htext⟩ := huse
  obtain ⟨⟨r, imported⟩, himport, rfl⟩ := Option.map_eq_some_iff.1 hreads
  exact ⟨use, r, imported, mem_importUses_iff.2 ⟨node, hnode, names, huse, himport⟩, hspan, htext⟩

/-- Every request that is found is edited, and has its record. -/
theorem exists_record_of_requested
    (h : .requested span specifier kind isWholesale ∈ foundIn source program treeshake) :
    ∃ r, .request span r ∈ (Scan.ofProgram source program treeshake).edits ∧
      (Scan.ofProgram source program treeshake).records[r]? =
        some ⟨specifier, kind, .expression, false, isWholesale⟩ := by
  obtain ⟨i, hedit, hrecord⟩ := exists_request_of_requested (declaredIn program treeshake).length h
  refine ⟨(declaredIn program treeshake).length + i, ?_, ?_⟩
  · rw [edits_ofProgram]
    exact List.mem_append_right _ hedit
  · rw [records_ofProgram, calledIn_eq, List.getElem?_append_right (by simp), ← hrecord,
      List.length_map, Nat.add_sub_cancel_left]

/-- Whether an edit takes a stretch as a whole, whatever is found there. -/
def Edit.isWhole : Edit → Bool
  | remove _ | request _ _ => true
  | replace _ _ => false

/-- **Whether a reference is settled:** it is replaced by code that reads its export, or
it stands in text that is removed or replaced as a whole. -/
def Settled (scan : Scan) (destinations : List Destination) (use : Use) (access : String) : Prop :=
  (use.stretch, use.text access) ∈ effective (scan.changes destinations) ∨
    ∃ edit ∈ scan.edits, edit.isWhole ∧ ∃ change ∈ effective (scan.changes destinations),
      edit.change? scan destinations = some change ∧
        change.1.start ≤ use.stretch.start ∧ use.stretch.stop ≤ change.1.stop

/-- Whether a stretch stands in an `import()` of a module of the host. -/
def LeftToHost (scan : Scan) (destinations : List Destination) (stretch : Span) : Prop :=
  ∃ span r record specifier, .request span r ∈ scan.edits ∧ scan.records[r]? = some record ∧
    record.kind = .dynamicImport ∧ destinations[r]? = some (.external specifier) ∧
      span.start ≤ stretch.start ∧ stretch.stop ≤ span.stop

/-- What is left to the host is not settled. -/
theorem not_leftToHost_of_settled {access : String} (honce : scan.EditedOnce source)
    (hcovers : use.stretch.start < use.stretch.stop) (h : Settled scan destinations use access) :
    ¬ LeftToHost scan destinations use.stretch := by
  rintro ⟨span, r, record, specifier, hrequest, hrecord, hkind, hdestination, hfrom, hto⟩
  have hnone : (Edit.request span r).change? scan destinations = none := by
    simp [Edit.change?, hrecord, hdestination, requestCall?, hkind]
  have hedit : ∃ edit ∈ scan.edits, (edit.change? scan destinations).isSome ∧
      edit.span.start ≤ use.stretch.start ∧ use.stretch.stop ≤ edit.span.stop := by
    rcases h with h | ⟨edit, hedit, -, change, -, hchange, hinside⟩
    · obtain ⟨edit, hedit, hchange⟩ := List.mem_filterMap.1 (List.mem_of_mem_filter h)
      refine ⟨edit, hedit, hchange ▸ rfl, ?_⟩
      rw [← Edit.span_change? hchange]
      exact ⟨Nat.le_refl _, Nat.le_refl _⟩
    · rw [Edit.span_change? hchange] at hinside
      exact ⟨edit, hedit, hchange ▸ rfl, hinside⟩
  obtain ⟨edit, hedit, hsome, hbefore, hafter⟩ := hedit
  have heq : edit = .request span r :=
    honce.eq_of_inside hedit hrequest (n := use.stretch.start) ⟨hbefore, by omega⟩
      ⟨hfrom, by simp only [Edit.span]; omega⟩
  rw [heq, hnone] at hsome
  cases hsome

/-- **A reference to an import binding** is settled unless it is left to the host. -/
theorem settled_iff (hlies : program.tree.Lies source.toList)
    (honce : (Scan.ofProgram source program treeshake).EditedOnce source)
    (hpoint : PointWhereRead (Scan.ofProgram source program treeshake) destinations)
    (huse : (use, r, imported) ∈ importUses program treeshake) :
    Settled (Scan.ofProgram source program treeshake) destinations use
        (imported.access (recordBinding r)) ↔
      ¬ LeftToHost (Scan.ofProgram source program treeshake) destinations use.stretch := by
  obtain ⟨node, hnode, names, huse, himport⟩ := mem_importUses_iff.1 huse
  have hnode' : node.Lies source.toList := hlies.child ((statementsOf_sublist program).subset hnode)
  have hcovers := (stretch_inside hnode' huse).2.1
  have hreads : names.access? use.name = some (imported.access (recordBinding r)) := by
    rw [Names.access?, himport]
    rfl
  -- a change of a stretch around the reference is effective
  have heffective : ∀ edit ∈ (Scan.ofProgram source program treeshake).edits, ∀ text,
      edit.span.start ≤ use.stretch.start → use.stretch.stop ≤ edit.span.stop →
      edit.change? (Scan.ofProgram source program treeshake) destinations = some (edit.span, text) →
      (edit.span, text) ∈
        effective ((Scan.ofProgram source program treeshake).changes destinations) := by
    intro edit hedit text hfrom hto hchange
    refine List.mem_filter.2 ⟨List.mem_filterMap.2 ⟨edit, hedit, hchange⟩, ?_⟩
    rw [Covers, decide_eq_true_iff]
    exact Nat.lt_of_le_of_lt hfrom (Nat.lt_of_lt_of_le hcovers hto)
  refine ⟨not_leftToHost_of_settled honce hcovers, fun hleft => ?_⟩
  rcases found_or_removed hlies hnode huse hreads with
    hreplaced | ⟨span, specifier, hrequested, hfrom, hto⟩ | ⟨span, hremoved, hfrom, hto⟩
  · left
    have hedit : .replace use.stretch (use.text (imported.access (recordBinding r))) ∈
        (Scan.ofProgram source program treeshake).edits := by
      rw [edits_ofProgram]
      exact List.mem_append_right _ (mem_findingEdits_of_replaced _ hreplaced)
    exact heffective _ hedit _ (Nat.le_refl _) (Nat.le_refl _) rfl
  · obtain ⟨i, hedit, hrecord⟩ := exists_record_of_requested hrequested
    obtain ⟨destination, hdestination, hplaced⟩ := hpoint.exists_destination hrecord rfl
    cases destination with
    | dropped => exact absurd rfl hplaced
    | external target =>
      exact absurd ⟨span, i, _, target, hedit, hrecord, rfl, hdestination, hfrom, hto⟩ hleft
    | bundled key =>
      have hchange : (Edit.request span i).change? (Scan.ofProgram source program treeshake)
          destinations = some (span, "__trimpack_dynamic(" ++ Text.quoted key ++ ")") := by
        simp [Edit.change?, hrecord, hdestination, requestCall?]
      exact Or.inr ⟨_, hedit, rfl, _, heffective _ hedit _ hfrom hto hchange, hchange, hfrom, hto⟩
  · exact Or.inr ⟨_, hremoved, rfl, _, heffective _ hremoved _ hfrom hto rfl, rfl, hfrom, hto⟩

/-! ## Variables that are mentioned -/

/-- **Whether the body of a module mentions the variable of a record:** a name that the
record binds is referred to, an export reads it, or all exports of its target are passed
on. -/
inductive Mentions (source : String) (program : Program) (treeshake : Bool)
    (destinations : List Destination) (r : ℕ) : Prop where
  | reference {use : Use} {imported : ImportedName}
      (refers : (use, r, imported) ∈ importUses program treeshake)
  | exported {name : String} {imported : ImportedName}
      (reads : (name, .imported r imported) ∈ (Scan.ofProgram source program treeshake).exports)
  | passedOn {record : Record} {destination : Destination}
      (asks : (Scan.ofProgram source program treeshake).records[r]? = some record)
      (points : destinations[r]? = some destination)
      (line : reexportLine r record destination ≠ "")

/-- The exports of a program: what statements pass on, and what is exported of the
program itself. -/
theorem exports_ofProgram (source : String) (program : Program) (treeshake : Bool) :
    (Scan.ofProgram source program treeshake).exports =
      ((declaredIn program treeshake).zipIdx.flatMap fun (d, record) =>
        d.exports.map fun (name, imported) => (name, Origin.imported record imported)) ++
        (statementsOf program).flatMap fun node =>
          (localOf source.toList (topNames program treeshake) node).exports := by
  rw [← List.flatMap_map _ Local.exports]
  rfl

/-- An import binding that is exported by name is referred to where it is exported. -/
theorem exists_place_of_exported {chars : List Char} (hlies : node.Lies chars)
    (h : (name, .imported r imported) ∈ (localOf chars names node).exports) :
    ∃ d bound, (names, d) ∈ places node names ∧ d.shape = .reference bound ∧
      names.imports.lookup bound = some (r, imported) := by
  have hsits := hlies.stands.sits
  unfold localOf at h
  split at h
  · cases h
  · cases h
  · cases h
  · rename_i typeOnly specifiers hshape
    rw [hshape] at hsits
    obtain ⟨item, hitem, h⟩ := List.mem_filterMap.1 h
    obtain ⟨typeOnly', at', bound, exported, hnamed⟩ := hsits item hitem
    rw [hnamed] at h
    dsimp only at h
    split at h
    · rename_i hlookup
      cases h
      have hframe : node.shape.frame = [] := by rw [hshape]; rfl
      have hframe' : item.shape.frame = [] := by rw [hnamed]; rfl
      -- what is exported is a reference inside a specifier of the statement
      have hinner : (names, ⟨at', .reference bound⟩) ∈ places item names := by
        refine mem_places_iff.2 (Or.inr ⟨true, ⟨at', .reference bound⟩, ?_, ?_⟩)
        · rw [hnamed]
          exact List.mem_cons_self ..
        · rw [Names.within_of_frame hframe']
          exact mem_places_iff.2 (Or.inl rfl)
      refine ⟨⟨at', .reference bound⟩, bound, mem_places_iff.2 (Or.inr ⟨true, item, ?_, ?_⟩), rfl,
        hlookup⟩
      · rw [hshape]
        exact List.mem_map_of_mem hitem
      · rwa [Names.within_of_frame hframe]
    · cases h
  · obtain ⟨_, -, heq⟩ := List.mem_map.1 h
    cases heq
  · cases List.mem_singleton.1 h
  · cases h

/-- **A record whose variable is mentioned** is that of a statement, and something is
read from its target. -/
theorem Mentions.exists_declared (hlies : program.tree.Lies source.toList)
    (h : Mentions source program treeshake destinations r) :
    ∃ declared, (declaredIn program treeshake)[r]? = some declared ∧
      declared.record.kind = .statement ∧ declared.record.isPlain = false := by
  cases h with
  | reference refers =>
    obtain ⟨node, hnode, names, huse, himport⟩ := mem_importUses_iff.1 refers
    obtain ⟨d, hplace, hshape, -⟩ := exists_reference_of_use huse
    exact exists_declared_of_place hnode hplace hshape himport
  | exported reads =>
    rw [exports_ofProgram] at reads
    rcases List.mem_append.1 reads with hpassed | hlocal
    · obtain ⟨⟨declared, record⟩, hdeclared, hexport⟩ := List.mem_flatMap.1 hpassed
      obtain ⟨⟨_, _⟩, hexport, heq⟩ := List.mem_map.1 hexport
      cases heq
      have hget := List.mem_zipIdx_iff_getElem?.1 hdeclared
      obtain ⟨node, -, hnode⟩ := exists_statement_of_declaredIn hget
      exact ⟨declared, hget, kind_declared? hnode, isPlain_of_export hnode hexport⟩
    · obtain ⟨node, hnode, hexport⟩ := List.mem_flatMap.1 hlocal
      have hnode' := hlies.child ((statementsOf_sublist program).subset hnode)
      obtain ⟨d, bound, hplace, hshape, hlookup⟩ := exists_place_of_exported hnode' hexport
      exact exists_declared_of_place hnode hplace hshape
        (import?_eq_some_iff.2 ⟨List.not_mem_nil, hlookup⟩)
  | @passedOn record destination asks points line =>
    have hstar : record.form = .star := by
      unfold reexportLine at line
      split_ifs at line with hstar
      · exact (by simpa using hstar : _ ∧ _).1
      · exact absurd rfl line
    -- no call passes all exports on by a statement
    rw [records_ofProgram] at asks
    rcases Nat.lt_or_ge r (declaredIn program treeshake).length with hlt | hge
    · rw [List.getElem?_append_left (by simpa using hlt), List.getElem?_map] at asks
      obtain ⟨declared, hget, rfl⟩ := Option.map_eq_some_iff.1 asks
      obtain ⟨node, -, hnode⟩ := exists_statement_of_declaredIn hget
      exact ⟨declared, hget, kind_declared? hnode, isPlain_of_star hnode hstar⟩
    · rw [List.getElem?_append_right (by simpa using hge), calledIn_eq] at asks
      obtain ⟨finding, -, hfinding⟩ := List.mem_filterMap.1 (List.mem_of_getElem? asks)
      unfold requestRecord? at hfinding
      split at hfinding
      · cases hfinding
        cases hstar
      · cases hfinding

/-- **A variable that is mentioned** is declared by one line of the preamble. -/
theorem Mentions.declaredOnce (hlies : program.tree.Lies source.toList)
    (hpoint : PointWhereRead (Scan.ofProgram source program treeshake) destinations)
    (h : Mentions source program treeshake destinations r) :
    DeclaredOnce (Scan.ofProgram source program treeshake) destinations r := by
  obtain ⟨declared, hdeclared, hkind, hplain⟩ := h.exists_declared hlies
  exact hpoint.declaredOnce (getElem?_records hdeclared) hkind hplain

/-! ## The body of a module -/

/-- **What becomes of import bindings in the body of a module.** -/
structure Rebinds (source : String) (program : Program) (treeshake : Bool)
    (destinations : List Destination) : Prop where
  /-- Every reference to an import binding is made once, by the tree that calls it or has
  it for name and value in one, or else by itself. -/
  made : ∀ node ∈ statementsOf program, ∀ names d own r imported,
    (names, d) ∈ places node (topNames program treeshake) → use? d = some own →
    names.import? own.name = some (r, imported) →
    ∃ use, (use, r, imported) ∈ importUses program treeshake ∧ use.name = own.name ∧
      use.at' = own.at' ∧ (own.role ≠ .alone → use = own)
  /-- It is replaced by code that reads its export, or stands in text that is removed or
  replaced as a whole, unless it stands in an `import()` of the host. -/
  settled : ∀ use r imported, (use, r, imported) ∈ importUses program treeshake →
    (Settled (Scan.ofProgram source program treeshake) destinations use
        (imported.access (recordBinding r)) ↔
      ¬ LeftToHost (Scan.ofProgram source program treeshake) destinations use.stretch)
  /-- Nothing else is replaced along a statement. -/
  only : ∀ span text, .replaced span text ∈ foundIn source program treeshake →
    ∃ use r imported, (use, r, imported) ∈ importUses program treeshake ∧ span = use.stretch ∧
      text = use.text (imported.access (recordBinding r))
  /-- Behind the preamble stands the source with the changes made. -/
  written : (Scan.ofProgram source program treeshake).kind = .declared → ∃ text,
    Rewrites source (effective ((Scan.ofProgram source program treeshake).changes destinations))
        text ∧
      body source (Scan.ofProgram source program treeshake) destinations =
        exportGetters (Scan.ofProgram source program treeshake).exports ++
          String.join (importLines (Scan.ofProgram source program treeshake) destinations) ++
          String.join (reexportLines (Scan.ofProgram source program treeshake) destinations) ++
          text
  /-- Every variable that is mentioned is declared by one line of the preamble. -/
  declared : ∀ r, Mentions source program treeshake destinations r →
    DeclaredOnce (Scan.ofProgram source program treeshake) destinations r

/-- **Import bindings are read from the variables of their records,** wherever a program
without types and elements refers to them: nothing refers to one by its own name but
inside an `import()` of the host, and each variable that is mentioned is declared once. -/
theorem rebinds_ofProgram {dialect : Dialect} (huntyped : dialect.typed = false)
    (hplain : dialect.markup = false) (h : Program.parse? dialect source = some program)
    (treeshake : Bool)
    (hpoint : PointWhereRead (Scan.ofProgram source program treeshake) destinations) :
    Rebinds source program treeshake destinations := by
  obtain ⟨hlies, hstop⟩ := Program.parse?_lies huntyped hplain h
  have honce := editedOnce_of_lies treeshake hlies hstop
  refine ⟨fun node hnode names d own r imported hplace hown himport => ?_,
    fun use r imported => settled_iff hlies honce hpoint,
    fun span text => exists_importUse_of_replaced, fun hkind => ?_,
    fun r hmentions => hmentions.declaredOnce hlies hpoint⟩
  · obtain ⟨use, huse, hname, hmade⟩ := exists_use_of_use? hplace hown
    rw [← hname] at himport
    exact ⟨use, mem_importUses_iff.2 ⟨node, hnode, names, huse, himport⟩, hname, hmade⟩
  · refine ⟨_, edited_rewrites (honce.changes_apart destinations)
      (honce.changes_inside destinations), ?_⟩
    rw [body, if_pos hkind]
    rfl

theorem clock_rebinds : ∃ program, Program.parse? {} clock = some program ∧
    PointWhereRead (Scan.ofProgram clock program true)
      [.bundled "tick.js", .external "./late.js"] ∧
      Rebinds clock program true [.bundled "tick.js", .external "./late.js"] := by
  obtain ⟨program, hprogram, hlength⟩ := Option.map_eq_some_iff.1 (by decide +kernel :
    (Program.parse? {} clock).map (fun program =>
      (Scan.ofProgram clock program true).records.length) = some 2)
  have hpoint : PointWhereRead (Scan.ofProgram clock program true)
      [.bundled "tick.js", .external "./late.js"] := .of_undropped hlength.symm (by decide)
  exact ⟨program, hprogram, hpoint, rebinds_ofProgram rfl rfl hprogram true hpoint⟩

/-- A source with options for an `import()` that come from another module. -/
def deferred : String :=
  "import opts from './opts.js';\nexport const load = () => import('ext', opts);\n"

/-- **The options of an `import()` of the host keep their names:** what they refer to is
declared nowhere in the body. -/
theorem deferred_unsettled : ∃ program, Program.parse? {} deferred = some program ∧
    (Scan.ofProgram deferred program true).kind = .declared ∧
    PointWhereRead (Scan.ofProgram deferred program true)
      [.bundled "opts.js", .external "ext"] ∧
    (∃ use, (use, 0, .default) ∈ importUses program true ∧
      ¬ Settled (Scan.ofProgram deferred program true) [.bundled "opts.js", .external "ext"] use
        (ImportedName.default.access (recordBinding 0))) ∧
    body deferred (Scan.ofProgram deferred program true) [.bundled "opts.js", .external "ext"] =
      "__trimpack_export(__trimpack_exports, \x7b\n  \"load\": () => load,\n\x7d);\n" ++
      "var __trimpack_import_0 = __trimpack_interop(__trimpack_require(\"opts.js\"));\n" ++
      "\nconst load = () => import('ext', opts);\n" := by
  obtain ⟨program, hprogram, huses, hedits, hkinds, hkind, hbody⟩ := (by decide +kernel :
    ∃ program ∈ Program.parse? {} deferred,
      importUses program true = [(⟨"opts", ⟨70, 74⟩, .alone, ⟨70, 74⟩⟩, 0, .default)] ∧
      (Scan.ofProgram deferred program true).edits =
        [.remove ⟨0, 29⟩, .remove ⟨30, 37⟩, .request ⟨56, 75⟩ 1] ∧
      (Scan.ofProgram deferred program true).records.map (·.kind) =
        [.statement, .dynamicImport] ∧
      (Scan.ofProgram deferred program true).kind = .declared ∧
      body deferred (Scan.ofProgram deferred program true)
          [.bundled "opts.js", .external "ext"] =
        "__trimpack_export(__trimpack_exports, \x7b\n  \"load\": () => load,\n\x7d);\n" ++
        "var __trimpack_import_0 = __trimpack_interop(__trimpack_require(\"opts.js\"));\n" ++
        "\nconst load = () => import('ext', opts);\n")
  have hlength := congrArg List.length hkinds
  rw [List.length_map] at hlength
  have huntyped : Dialect.typed {} = false := rfl
  obtain ⟨hlies, hstop⟩ := Program.parse?_lies huntyped rfl hprogram
  refine ⟨program, hprogram, hkind, .of_undropped hlength.symm (by decide),
    ⟨⟨"opts", ⟨70, 74⟩, .alone, ⟨70, 74⟩⟩, huses ▸ List.mem_singleton_self _, fun hsettled => ?_⟩,
    hbody⟩
  -- the reference stands in the second record's call, which is left as it is
  refine not_leftToHost_of_settled (editedOnce_of_lies true hlies hstop) (by decide) hsettled ?_
  have hcall : ((Scan.ofProgram deferred program true).records.map (·.kind))[1]? =
      some .dynamicImport := by rw [hkinds]; rfl
  obtain ⟨record, hrecord, hdynamic⟩ := Option.map_eq_some_iff.1 (List.getElem?_map ▸ hcall)
  refine ⟨⟨56, 75⟩, 1, record, "ext", ?_, hrecord, hdynamic, rfl, by decide, by decide⟩
  rw [hedits]
  decide

end DepBundle.Module
