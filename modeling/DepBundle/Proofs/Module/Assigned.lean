import DepBundle.Proofs.Module.References
import DepBundle.Proofs.Module.Rewriting
/-!
# Modules — exports that are assigned

A program without import and export statements exports what it assigns to the global
`exports` or `module.exports`, in one of three forms (`Assigns`). Its scan looks into
every tree but the options of an `import()` that names its target
(`mem_places_iff_visited`), and finds the names that are assigned there
(`exported_iff_visited`). What it reports are these and `default`
(`reportsAssigned_ofProgram`). That is what the program assigns, but that the mark of a
former module counts where an object with it is assigned, and that a list of arguments
in front of the name that a call defines is read over.
-/

namespace DepBundle.Module

open Syntax

variable {source : List Char} {names names' : Names} {node c d : Node} {name : String}
  {inside : Bool}

/-! ## The forms -/

/-- How a name is assigned to the exports. -/
inductive ExportForm where
  /-- As a member: `exports.name = …` and `module.exports.name = …`. -/
  | member
  /-- As a property that is defined: `Object.defineProperty(exports, 'name', …)`. -/
  | definition
  /-- With an object that becomes the exports: `module.exports = { name: … }`. -/
  | object
deriving DecidableEq, Repr

/-- The name of a member of an object, where it is written out. -/
def memberName? (member : Node) : Option String :=
  match member.shape with
  | .property _ key _ | .method _ _ key _ => keyName? key
  | .shorthand value => some value.clauseText
  | _ => none

/-- **A tree that assigns a name to the exports,** where `names` says what its names
mean. -/
inductive Assigns (names : Names) (name : String) : ExportForm → Node → Prop where
  | member {span at' key : Span} {op : String} {optional : Bool} {object value : Node}
      (exports : isExportsObject names object) :
      Assigns names name .member
        ⟨span, .assign op ⟨at', .member optional object ⟨key, .word name⟩⟩ value⟩
  | definition {span at' key text : Span} {optional optional' : Bool} {object target : Node}
      {types : Option Node} {rest : List Node} (global : isGlobalNamed names "Object" object)
      (exports : isExportsObject names target) :
      Assigns names name .definition
        ⟨span, .call optional ⟨at', .member optional' object ⟨key, .word "defineProperty"⟩⟩ types
          (target :: ⟨text, .string name⟩ :: rest)⟩
  | object {span at' : Span} {op : String} {target member : Node} {members : List Node}
      (whole : isModuleExports names target) (mem : member ∈ members)
      (named : memberName? member = some name) :
      Assigns names name .object ⟨span, .assign op target ⟨at', .object members⟩⟩

/-- Whether an argument is a list of arguments. -/
def isList (arg : Node) : Bool :=
  match arg.shape with
  | .spread _ => true
  | _ => false

/-- **A call that is taken to define a name** though a list of arguments stands before it:
`Object.defineProperty(exports, ...list, 'name')`. -/
inductive DefinesPastList (names : Names) (name : String) : Node → Prop where
  | mk {span at' key text : Span} {optional optional' : Bool} {object target : Node}
      {types : Option Node} {args rest : List Node}
      (global : isGlobalNamed names "Object" object)
      (values : args.filter (!isList ·) = target :: ⟨text, .string name⟩ :: rest)
      (exports : isExportsObject names target) (list : ∃ arg ∈ args.take 2, isList arg) :
      DefinesPastList names name
        ⟨span, .call optional ⟨at', .member optional' object ⟨key, .word "defineProperty"⟩⟩ types
          args⟩

/-! ## What a tree exports by itself -/

/-- The names that a tree exports by itself. -/
def exportedAt (names : Names) (node : Node) : List String :=
  match node.shape with
  | .call _ callee _ args => (definedExport? names callee args).toList
  | .assign _ target value => findingNames (assignedExports names target value)
  | _ => []

/-- The global `module` is not what exports are assigned to. -/
theorem isExportsObject_of_module (h : isGlobalNamed names "module" node) :
    isExportsObject names node = false := by
  obtain ⟨own, hown⟩ := exists_reference_of_isGlobalNamed h
  have hmodule : own = "module" := by
    rw [isGlobalNamed, hown] at h
    exact eq_of_beq (Bool.and_eq_true_iff.1 h).1
  simp [isExportsObject, isModuleExports, isGlobalNamed, member?, hown, hmodule]

theorem mem_findingNames {found : List Finding} :
    name ∈ findingNames found ↔ .exported name ∈ found := by
  rw [findingNames, List.mem_filterMap]
  constructor
  · rintro ⟨finding, hmem, hname⟩
    split at hname
    · cases hname
      exact hmem
    · cases hname
  · intro hmem
    exact ⟨_, hmem, rfl⟩

/-- What is found where names are assigned are these names. -/
theorem mem_assignedExports_iff {target value : Node} :
    .exported name ∈ assignedExports names target value ↔
      (∃ object, member? target = some (object, name) ∧ isExportsObject names object ∧
        name ≠ interopMark) ∨
      isModuleExports names target ∧ name ∈ objectKeys value := by
  rw [assignedExports, isModuleExports]
  cases hmember : member? target with
  | none => simp
  | some selected =>
    obtain ⟨object, own⟩ := selected
    have hfound : (∃ object', some (object, own) = some (object', name) ∧
        isExportsObject names object' ∧ name ≠ interopMark) ↔
          isExportsObject names object ∧ own ≠ interopMark ∧ name = own := by
      constructor
      · rintro ⟨object', hselected, hexports, hmark⟩
        cases hselected
        exact ⟨hexports, hmark, rfl⟩
      · rintro ⟨hexports, hmark, rfl⟩
        exact ⟨object, rfl, hexports, hmark⟩
    -- the exports object is not `module`, so at most one of the two ways applies
    have hmodule : isExportsObject names object → ¬ isGlobalNamed names "module" object :=
      fun hexports h => by
        rw [isExportsObject_of_module h] at hexports
        cases hexports
    rw [hfound, Option.any_some]
    dsimp only
    split_ifs with hexports hmark hwhole
    · simp [hexports, hmark, hmodule hexports]
    · simp [hexports, hmark, hmodule hexports]
    · simpa [hexports] using fun _ => hwhole
    · have hnot : own = "exports" → isGlobalNamed names "module" object = false := by
        simpa using hwhole
      simp +contextual [hexports, hnot]

/-- Where none of the first two is left out, a filtered list begins like the list. -/
theorem exists_cons_of_filter {p : Node → Bool} {args rest : List Node}
    (h : args.filter p = c :: d :: rest) (hfront : ∀ arg ∈ args.take 2, p arg) :
    ∃ more, args = c :: d :: more := by
  rcases args with _ | ⟨first, _ | ⟨second, more⟩⟩
  · cases h
  · rw [List.filter_cons_of_pos (hfront first (List.mem_singleton_self _))] at h
    cases h
  · rw [List.filter_cons_of_pos (hfront first (List.mem_cons_self ..)),
      List.filter_cons_of_pos (hfront second (List.mem_cons_of_mem _ (List.mem_singleton_self _)))]
      at h
    cases h
    exact ⟨more, rfl⟩

/-- What a call defines, by its arguments that are no lists. -/
theorem definedExport?_eq_some_iff {callee : Node} {args : List Node} :
    definedExport? names callee args = some name ↔ name ≠ interopMark ∧
      ∃ object target text rest, member? callee = some (object, "defineProperty") ∧
        isGlobalNamed names "Object" object ∧ isExportsObject names target ∧
          args.filter (!isList ·) = target :: ⟨text, .string name⟩ :: rest := by
  have hvalues : ∀ keeps : Node → Bool, (∀ arg, keeps arg = !isList arg) →
      args.filter keeps = args.filter (!isList ·) := fun keeps h =>
    List.filter_congr fun arg _ => h arg
  rw [definedExport?, hvalues _ fun arg => by unfold isList; cases arg.shape <;> rfl]
  generalize args.filter (!isList ·) = values
  constructor
  · intro h
    obtain ⟨⟨object, own⟩, hmember, h⟩ := Option.bind_eq_some_iff.1 h
    obtain ⟨_, hcallee, h⟩ := Option.bind_eq_some_iff.1 h
    obtain ⟨target, htarget, h⟩ := Option.bind_eq_some_iff.1 h
    obtain ⟨second, hsecond, h⟩ := Option.bind_eq_some_iff.1 h
    obtain ⟨defined, hdefined, h⟩ := Option.bind_eq_some_iff.1 h
    obtain ⟨_, hexports, h⟩ := Option.bind_eq_some_iff.1 h
    cases h
    obtain ⟨text, rfl⟩ := stringOf?_eq_some_iff.1 hdefined
    obtain ⟨hown, hglobal⟩ := Bool.and_eq_true_iff.1 (Option.guard_eq_some' _ |>.1 hcallee)
    obtain ⟨hobject, hmark⟩ := Bool.and_eq_true_iff.1 (Option.guard_eq_some' _ |>.1 hexports)
    rcases values with _ | ⟨first, _ | ⟨next, rest⟩⟩
    · cases htarget
    · cases hsecond
    · cases htarget
      cases hsecond
      exact ⟨bne_iff_ne.1 hmark, object, target, text, rest, eq_of_beq hown ▸ hmember, hglobal,
        hobject, rfl⟩
  · rintro ⟨hmark, object, target, text, rest, hmember, hglobal, hexports, rfl⟩
    simp [hmember, hglobal, hexports, hmark, stringOf?, Node.shape]

theorem mem_objectKeys_iff : name ∈ objectKeys node ↔
    ∃ at' members member, node = ⟨at', .object members⟩ ∧ member ∈ members ∧
      memberName? member = some name := by
  constructor
  · intro h
    unfold objectKeys at h
    split at h
    · rename_i heq
      obtain ⟨member, hmem, hname⟩ := List.mem_filterMap.1 h
      exact ⟨_, _, member, eq_of_shape heq, hmem, hname⟩
    · cases h
  · rintro ⟨at', members, member, rfl, hmem, hname⟩
    exact List.mem_filterMap.2 ⟨member, hmem, hname⟩

/-- A list of arguments is not what exports are assigned to. -/
theorem isList_of_isExportsObject (h : isExportsObject names node) : isList node = false := by
  rcases Bool.or_eq_true_iff.1 h with h | h
  · obtain ⟨own, hown⟩ := exists_reference_of_isGlobalNamed h
    rw [isList, hown]
  · obtain ⟨object, hmember, -⟩ := isModuleExports_iff.1 h
    obtain ⟨at', optional, key, rfl⟩ := member?_eq_some_iff.1 hmember
    rfl

/-- What a tree exports by itself, by the form in which it assigns. -/
theorem assigns_of_mem_exportedAt (h : name ∈ exportedAt names node) :
    (∃ form, Assigns names name form node ∧ (name = interopMark → form = .object)) ∨
      name ≠ interopMark ∧ DefinesPastList names name node := by
  unfold exportedAt at h
  split at h
  · rename_i args heq
    rw [eq_of_shape heq]
    obtain ⟨hmark, object, target, text, rest, hmember, hglobal, hexports, hvalues⟩ :=
      definedExport?_eq_some_iff.1 (Option.mem_toList.1 h)
    obtain ⟨at', optional, key, rfl⟩ := member?_eq_some_iff.1 hmember
    by_cases hlist : ∃ arg ∈ args.take 2, isList arg
    · exact Or.inr ⟨hmark, .mk hglobal hvalues hexports hlist⟩
    · obtain ⟨more, rfl⟩ := exists_cons_of_filter hvalues
        fun arg harg => by simpa using fun h => hlist ⟨arg, harg, h⟩
      exact Or.inl ⟨.definition, .definition hglobal hexports, fun h => absurd h hmark⟩
  · rename_i heq
    rw [eq_of_shape heq]
    rcases mem_assignedExports_iff.1 (mem_findingNames.1 h) with
      ⟨object, hmember, hexports, hmark⟩ | ⟨hwhole, hname⟩
    · obtain ⟨at', optional, key, rfl⟩ := member?_eq_some_iff.1 hmember
      exact Or.inl ⟨.member, .member hexports, fun h => absurd h hmark⟩
    · obtain ⟨at', members, member, rfl, hmem, hnamed⟩ := mem_objectKeys_iff.1 hname
      exact Or.inl ⟨.object, .object hwhole hmem hnamed, fun _ => rfl⟩
  · cases h

theorem Assigns.mem_exportedAt {form : ExportForm} (h : Assigns names name form node)
    (hform : name = interopMark → form = .object) : name ∈ exportedAt names node := by
  cases h with
  | member exports =>
    have hmark : name ≠ interopMark := fun hmark => by cases hform hmark
    exact mem_findingNames.2 (mem_assignedExports_iff.2 (Or.inl ⟨_, rfl, exports, hmark⟩))
  | @definition _ _ _ text _ _ object target _ rest global exports =>
    have hmark : name ≠ interopMark := fun hmark => by cases hform hmark
    have hvalues : (target :: ⟨text, .string name⟩ :: rest).filter (!isList ·) =
        target :: ⟨text, .string name⟩ :: rest.filter (!isList ·) := by
      rw [List.filter_cons_of_pos (by simp [isList_of_isExportsObject exports])]
      rfl
    exact Option.mem_toList.2 (definedExport?_eq_some_iff.2
      ⟨hmark, object, target, text, _, rfl, global, exports, hvalues⟩)
  | object whole mem named =>
    exact mem_findingNames.2 (mem_assignedExports_iff.2
      (Or.inr ⟨whole, mem_objectKeys_iff.2 ⟨_, _, _, rfl, mem, named⟩⟩))

theorem DefinesPastList.mem_exportedAt (h : DefinesPastList names name node)
    (hmark : name ≠ interopMark) : name ∈ exportedAt names node := by
  cases h with
  | mk global values exports list =>
    exact Option.mem_toList.2 (definedExport?_eq_some_iff.2
      ⟨hmark, _, _, _, _, rfl, global, exports, values⟩)

/-- **What a tree exports by itself** is what it assigns; but the mark only counts in an
object, and lists of arguments are read over. -/
theorem mem_exportedAt_iff : name ∈ exportedAt names node ↔
    (∃ form, Assigns names name form node ∧ (name = interopMark → form = .object)) ∨
      name ≠ interopMark ∧ DefinesPastList names name node := by
  refine ⟨assigns_of_mem_exportedAt, ?_⟩
  rintro (⟨form, h, hform⟩ | ⟨hmark, h⟩)
  · exact h.mem_exportedAt hform
  · exact h.mem_exportedAt hmark

/-! ## What is looked into -/

/-- The options of an `import()` that names its target. -/
def leftOut? (node : Node) : Option Node :=
  match node.shape with
  | .importCall target options => if (stringOf? target).isSome then options else none
  | _ => none

/-- The trees right below that a scan looks into: all but such options. -/
def lookedInto {α : Type} (node : Node) (placed : List α) : List α :=
  if (leftOut? node).isSome then placed.dropLast else placed

/-- **Every tree that a scan looks into,** with the names where it stands. -/
def visited (node : Node) : Names → List (Names × Node) :=
  node.para fun span shape names =>
    (names, ⟨span, shape.map (·.1)⟩) ::
      (lookedInto ⟨span, shape.map (·.1)⟩ shape.placed).flatMap fun (inside, _, below) =>
        below (names.within ⟨span, shape.map (·.1)⟩ inside)

theorem visited_eq (node : Node) (names : Names) : visited node names =
    (names, node) :: (lookedInto node node.shape.placed).flatMap fun (inside, c) =>
      visited c (names.within node inside) := by
  obtain ⟨span, shape⟩ := node
  have hlooked : ∀ f : Bool × Node → Bool × Node × (Names → List (Names × Node)),
      lookedInto ⟨span, shape⟩ (shape.placed.map f) =
        (lookedInto ⟨span, shape⟩ shape.placed).map f := by
    intro f
    unfold lookedInto
    split_ifs
    · exact List.map_dropLast.symm
    · rfl
  rw [visited, Node.para_mk, Shape.map_map_fst, placed_map, hlooked, List.flatMap_map]
  rfl

theorem mem_visited_iff : (names', d) ∈ visited node names ↔
    (names', d) = (names, node) ∨ ∃ inside c, (inside, c) ∈ lookedInto node node.shape.placed ∧
      (names', d) ∈ visited c (names.within node inside) := by
  rw [visited_eq, List.mem_cons, List.mem_flatMap]
  simp only [Prod.exists]

theorem leftOut?_eq_some_iff : leftOut? node = some c ↔
    ∃ target, node.shape = .importCall target (some c) ∧ (stringOf? target).isSome := by
  unfold leftOut?
  split
  · rename_i target options heq
    simp only [Option.ite_none_right_eq_some, heq, Shape.importCall.injEq]
    constructor
    · rintro ⟨htarget, rfl⟩
      exact ⟨target, ⟨rfl, rfl⟩, htarget⟩
    · rintro ⟨_, ⟨rfl, rfl⟩, htarget⟩
      exact ⟨htarget, rfl⟩
  · rename_i hnot
    simp only [reduceCtorEq, false_iff]
    rintro ⟨target, heq, -⟩
    exact hnot _ _ heq

/-- The options that are left out stand right below, where the names of the call do. -/
theorem mem_placed_iff : (inside, c) ∈ node.shape.placed ↔
    (inside, c) ∈ lookedInto node node.shape.placed ∨
      leftOut? node = some c ∧ inside = true := by
  unfold lookedInto
  cases hleft : leftOut? node with
  | none => simp
  | some options =>
    obtain ⟨target, hshape, -⟩ := leftOut?_eq_some_iff.1 hleft
    have hplaced : node.shape.placed = [(true, target), (true, options)] := by rw [hshape]; rfl
    rw [hplaced]
    simp [and_comm, eq_comm]

theorem mem_children_of_lookedInto (h : (inside, c) ∈ lookedInto node node.shape.placed) :
    c ∈ node.children :=
  mem_children_of_placed (mem_placed_iff.2 (Or.inl h))

theorem within_of_leftOut? (h : leftOut? node = some c) (names : Names) (inside : Bool) :
    names.within node inside = names := by
  obtain ⟨target, hshape, -⟩ := leftOut?_eq_some_iff.1 h
  exact Names.within_of_frame (by rw [hshape]; rfl) inside

/-- **What is not looked into** stands in options that are left out. -/
theorem mem_places_iff_visited : (names', d) ∈ places node names ↔
    (names', d) ∈ visited node names ∨ ∃ inner call options, (inner, call) ∈ visited node names ∧
      leftOut? call = some options ∧ (names', d) ∈ places options inner := by
  induction node using Node.children_induction generalizing names with
  | h span shape ih =>
    constructor
    · intro h
      rcases mem_places_iff.1 h with heq | ⟨inside, c, hc, h⟩
      · exact Or.inl (mem_visited_iff.2 (Or.inl heq))
      rcases mem_placed_iff.1 hc with hlooked | ⟨hleft, -⟩
      · have hlift : ∀ place ∈ visited c (names.within ⟨span, shape⟩ inside),
            place ∈ visited ⟨span, shape⟩ names := fun place hplace =>
          mem_visited_iff.2 (Or.inr ⟨inside, c, hlooked, hplace⟩)
        rcases (ih c (mem_children_of_placed hc)).1 h with h | ⟨inner, call, options, hcall, h⟩
        · exact Or.inl (hlift _ h)
        · exact Or.inr ⟨inner, call, options, hlift _ hcall, h⟩
      · rw [within_of_leftOut? hleft] at h
        exact Or.inr ⟨names, _, c, mem_visited_iff.2 (Or.inl rfl), hleft, h⟩
    · -- every tree that is looked into is among the places of the whole tree
      have hlift : ∀ inside c, (inside, c) ∈ lookedInto ⟨span, shape⟩ shape.placed →
          (names', d) ∈ places c (names.within ⟨span, shape⟩ inside) →
          (names', d) ∈ places ⟨span, shape⟩ names := fun inside c hc h =>
        mem_places_iff.2 (Or.inr ⟨inside, c, mem_placed_iff.2 (Or.inl hc), h⟩)
      rintro (h | ⟨inner, call, options, hcall, hleft, h⟩)
      · rcases mem_visited_iff.1 h with heq | ⟨inside, c, hc, h⟩
        · exact mem_places_iff.2 (Or.inl heq)
        · exact hlift inside c hc ((ih c (mem_children_of_lookedInto hc)).2 (Or.inl h))
      · rcases mem_visited_iff.1 hcall with heq | ⟨inside, c, hc, hcall⟩
        · cases heq
          have hplaced := mem_placed_iff.2 (Or.inr ⟨hleft, rfl⟩)
          refine mem_places_iff.2 (Or.inr ⟨true, options, hplaced, ?_⟩)
          rwa [within_of_leftOut? hleft]
        · exact hlift inside c hc
            ((ih c (mem_children_of_lookedInto hc)).2 (Or.inr ⟨inner, call, options, hcall, hleft, h⟩))

/-! ## What is found -/

theorem access?_of_imports (h : names.imports = []) (name : String) :
    names.access? name = none := by
  rw [Names.access?, Names.import?, h]
  split <;> rfl

theorem mem_foundBelow_iff {finding : Finding} : finding ∈ foundBelow names node ↔
    ∃ inside c, (inside, c) ∈ node.shape.placed ∧
      finding ∈ findings c (names.within node inside) := by
  rw [foundBelow, List.mem_flatMap, Prod.exists]
  rfl

/-- Where nothing is imported nothing is found at a tree without trees below. -/
theorem findings_of_leaf (himports : names.imports = []) (hplaced : node.shape.placed = []) :
    findings node names = [] := by
  have hbelow : foundBelow names node = [] := by rw [foundBelow, hplaced]; rfl
  obtain ⟨span, shape⟩ := node
  cases shape with
  | reference name => exact findings_of_reference rfl (access?_of_imports himports name)
  | shorthand value => cases hplaced
  | call optional callee types args => cases hplaced
  | importCall target options => cases hplaced
  | assign op target value => cases hplaced
  | _ => exact (findings_of_mayFind rfl names).trans hbelow

theorem not_exported_of_leaves (himports : names.imports = [])
    (h : ∀ inside c, (inside, c) ∈ node.shape.placed → c.shape.placed = []) :
    .exported name ∉ foundBelow names node := by
  rw [mem_foundBelow_iff]
  rintro ⟨inside, c, hc, hfound⟩
  rw [findings_of_leaf (by rw [Names.imports_within, himports]) (h inside c hc)] at hfound
  cases hfound

theorem findings_call {span : Span} {optional : Bool} {callee : Node} {types : Option Node}
    {args : List Node} (himports : names.imports = [])
    (hrequires : requireSpecifier? names ⟨span, .call optional callee types args⟩ = none) :
    findings ⟨span, .call optional callee types args⟩ names =
      (exportedAt names ⟨span, .call optional callee types args⟩).map .exported ++
        foundBelow names ⟨span, .call optional callee types args⟩ := by
  have hmap := Shape.map_map_fst (Shape.call optional callee types args) findings
  have hargs : (args.map fun n => (n, findings n)).map (·.1) = args := by
    simp [Function.comp_def]
  rw [← findingsBelow_map span, findings_eq]
  rw [Shape.map] at hmap ⊢
  rw [findingStep, hmap, hrequires]
  dsimp only
  rw [hargs, Option.toList_map]
  refine congrArg (List.append _) ?_
  split
  · rw [access?_of_imports himports]
  · rfl

theorem findings_assign {span : Span} {op : String} {target value : Node}
    (h : isModuleExports names target → requireSpecifier? names value = none) :
    findings ⟨span, .assign op target value⟩ names =
      assignedExports names target value ++ foundBelow names ⟨span, .assign op target value⟩ := by
  have hwhole : (if isModuleExports names target then requireSpecifier? names value else none) =
      none := by
    split_ifs with hwhole
    · exact h hwhole
    · rfl
  rw [← findingsBelow_map span, findings_eq, Shape.map, findingStep, hwhole]

/-- What a call of `require` with a string is made of has no trees below. -/
theorem placed_of_requires {specifier : String} (hlies : node.Lies source)
    (h : requireSpecifier? names node = some specifier) (hc : (inside, c) ∈ node.shape.placed) :
    c.shape.placed = [] := by
  have hsits := hlies.stands.sits
  obtain ⟨optional, callee, types, argument, own, hcall, -, hown, text, rfl⟩ :=
    exists_call_of_requires h
  rw [hcall] at hc hsits
  obtain rfl : types = none := hsits
  rcases List.mem_cons.1 hc with hc | hc
  · cases hc
    rw [hown]
    rfl
  · cases List.mem_singleton.1 hc
    rfl

/-- A call that asks for another module exports nothing. -/
theorem exportedAt_of_requires {specifier : String}
    (h : requireSpecifier? names node = some specifier) : exportedAt names node = [] := by
  obtain ⟨optional, callee, types, argument, own, hcall, -, hown, -⟩ := exists_call_of_requires h
  have hmember : member? callee = none := by rw [member?, hown]
  rw [exportedAt, hcall]
  dsimp only
  rw [definedExport?, hmember]
  rfl

theorem findings_of_requires {specifier : String}
    (h : requireSpecifier? names node = some specifier) :
    findings node names = [.requested node.span specifier .requireCall false] := by
  obtain ⟨span, shape⟩ := node
  cases shape with
  | call optional callee types args =>
    have hmap := Shape.map_map_fst (Shape.call optional callee types args) findings
    rw [findings_eq]
    rw [Shape.map] at hmap ⊢
    rw [findingStep, hmap, h]
    rfl
  | _ => cases h

/-- A call that asks for another module exports nothing, nor does what it is made of. -/
theorem exported_iff_of_requires {specifier : String} (hlies : node.Lies source)
    (himports : names.imports = []) (h : requireSpecifier? names node = some specifier) :
    .exported name ∈ findings node names ↔
      name ∈ exportedAt names node ∨ .exported name ∈ foundBelow names node := by
  have hbelow : .exported name ∉ foundBelow names node :=
    not_exported_of_leaves himports fun inside c hc => placed_of_requires hlies h hc
  rw [findings_of_requires h, exportedAt_of_requires h]
  simpa using hbelow

/-- Along `module.exports` nothing is exported. -/
theorem not_exported_of_isModuleExports (himports : names.imports = [])
    (h : isModuleExports names node) : .exported name ∉ findings node names := by
  obtain ⟨object, hmember, hglobal⟩ := isModuleExports_iff.1 h
  obtain ⟨at', optional, key, rfl⟩ := member?_eq_some_iff.1 hmember
  obtain ⟨own, hown⟩ := exists_reference_of_isGlobalNamed hglobal
  rw [findings_of_mayFind rfl]
  refine not_exported_of_leaves himports fun inside c hc => ?_
  rcases List.mem_cons.1 hc with hc | hc
  · cases hc
    rw [hown]
    rfl
  · cases List.mem_singleton.1 hc
    rfl

/-- Passing on all exports of another module exports nothing besides. -/
theorem exported_iff_of_wholesale {span : Span} {op specifier : String} {target value : Node}
    (himports : names.imports = []) (hwhole : isModuleExports names target)
    (h : requireSpecifier? names value = some specifier) :
    .exported name ∈ findings ⟨span, .assign op target value⟩ names ↔
      name ∈ exportedAt names ⟨span, .assign op target value⟩ ∨
        .exported name ∈ foundBelow names ⟨span, .assign op target value⟩ := by
  have hfindings : findings ⟨span, .assign op target value⟩ names =
      [.requested value.span specifier .requireCall true] := by
    rw [findings_eq, Shape.map, findingStep, hwhole, h]
    rfl
  -- neither `module.exports` nor a call of `require` exports a name by itself
  have hat : name ∉ exportedAt names ⟨span, .assign op target value⟩ := by
    intro hmem
    rcases mem_assignedExports_iff.1 (mem_findingNames.1 hmem) with
      ⟨object, hmember, hexports, -⟩ | ⟨-, hkey⟩
    · obtain ⟨object', hmember', hglobal⟩ := isModuleExports_iff.1 hwhole
      rw [hmember] at hmember'
      cases hmember'
      rw [isExportsObject_of_module hglobal] at hexports
      cases hexports
    · obtain ⟨at', members, member, rfl, -⟩ := mem_objectKeys_iff.1 hkey
      cases h
  have hbelow : .exported name ∉ foundBelow names ⟨span, .assign op target value⟩ := by
    rw [mem_foundBelow_iff]
    rintro ⟨inside, c, hc, hfound⟩
    rw [Names.within_of_frame rfl] at hfound
    rcases List.mem_cons.1 hc with hc | hc
    · cases hc
      exact not_exported_of_isModuleExports himports hwhole hfound
    · cases List.mem_singleton.1 hc
      rw [findings_of_requires h] at hfound
      cases List.mem_singleton.1 hfound
  rw [hfindings]
  simpa using ⟨hat, hbelow⟩

theorem findings_shorthand {span : Span} {value : Node} (himports : names.imports = []) :
    findings ⟨span, .shorthand value⟩ names = foundBelow names ⟨span, .shorthand value⟩ := by
  rw [foundBelow_shorthand, findings_eq, Shape.map, findingStep]
  split
  · rw [access?_of_imports himports]
  · rfl

/-- An `import()` that names its target exports nothing, whatever its options are. -/
theorem exported_iff_of_importCall {span : Span} {specifier : String} {target : Node}
    {options : Option Node} (himports : names.imports = [])
    (h : stringOf? target = some specifier) :
    .exported name ∈ findings ⟨span, .importCall target options⟩ names ↔
      name ∈ exportedAt names ⟨span, .importCall target options⟩ ∨
        ∃ inside c, (inside, c) ∈ lookedInto ⟨span, .importCall target options⟩
            (Shape.importCall target options).placed ∧
          .exported name ∈ findings c (names.within ⟨span, .importCall target options⟩ inside) := by
  have hfindings : findings ⟨span, .importCall target options⟩ names =
      [.requested span specifier .dynamicImport false] := by
    rw [findings_eq, Shape.map, findingStep, h]
  have hlooked : lookedInto ⟨span, .importCall target options⟩
      (Shape.importCall target options).placed = [(true, target)] := by
    cases options <;>
      simp [lookedInto, leftOut?, Node.shape, Shape.placed, Shape.children, h]
  rw [hfindings]
  refine iff_of_false (by simp) ?_
  rintro (hat | ⟨inside, c, hc, hfound⟩)
  · cases hat
  · rw [hlooked] at hc
    cases List.mem_singleton.1 hc
    obtain ⟨text, rfl⟩ := stringOf?_eq_some_iff.1 h
    rw [findings_of_leaf (by rw [Names.imports_within, himports]) rfl] at hfound
    cases hfound

/-- What is exported at a tree and in those right below, where all are looked into. -/
theorem exported_iff_of_mem {names : Names} (hleft : leftOut? node = none)
    (h : .exported name ∈ findings node names ↔
      name ∈ exportedAt names node ∨ .exported name ∈ foundBelow names node) :
    .exported name ∈ findings node names ↔ name ∈ exportedAt names node ∨
      ∃ inside c, (inside, c) ∈ lookedInto node node.shape.placed ∧
        .exported name ∈ findings c (names.within node inside) := by
  rw [h, mem_foundBelow_iff, lookedInto, hleft]
  rfl

/-- **One step:** what is exported along a tree is what it exports by itself and what is
exported along the trees right below that are looked into. -/
theorem exported_iff_below (hlies : node.Lies source) (himports : names.imports = []) :
    .exported name ∈ findings node names ↔ name ∈ exportedAt names node ∨
      ∃ inside c, (inside, c) ∈ lookedInto node node.shape.placed ∧
        .exported name ∈ findings c (names.within node inside) := by
  obtain ⟨span, shape⟩ := node
  -- only these forms are not simply looked into
  cases shape with
  | reference own =>
    refine exported_iff_of_mem rfl ?_
    rw [findings_of_leaf himports rfl]
    exact iff_of_false List.not_mem_nil (by rintro (h | h) <;> cases h)
  | shorthand value =>
    refine exported_iff_of_mem rfl ?_
    rw [findings_shorthand himports]
    exact (or_iff_right List.not_mem_nil).symm
  | call optional callee types args =>
    refine exported_iff_of_mem rfl ?_
    cases hrequires : requireSpecifier? names ⟨span, .call optional callee types args⟩ with
    | none =>
      rw [findings_call himports hrequires]
      simp
    | some specifier => exact exported_iff_of_requires hlies himports hrequires
  | importCall target options =>
    cases htarget : stringOf? target with
    | none =>
      refine exported_iff_of_mem (by simp [leftOut?, Node.shape, htarget]) ?_
      rw [← findingsBelow_map span, findings_eq, Shape.map, findingStep, htarget]
      exact (or_iff_right List.not_mem_nil).symm
    | some specifier => exact exported_iff_of_importCall himports htarget
  | assign op target value =>
    refine exported_iff_of_mem rfl ?_
    by_cases hplain : isModuleExports names target → requireSpecifier? names value = none
    · rw [findings_assign hplain, List.mem_append, ← mem_findingNames]
      rfl
    · obtain ⟨hwhole, hsome⟩ := Classical.not_imp.1 hplain
      obtain ⟨specifier, hrequires⟩ := Option.ne_none_iff_exists'.1 hsome
      exact exported_iff_of_wholesale himports hwhole hrequires
  | _ =>
    refine exported_iff_of_mem rfl ?_
    rw [findings_of_mayFind rfl]
    exact (or_iff_right List.not_mem_nil).symm

/-- **What is exported along a tree** is what the trees that are looked into export by
themselves. -/
theorem exported_iff_visited (hlies : node.Lies source) (himports : names.imports = []) :
    .exported name ∈ findings node names ↔
      ∃ inner d, (inner, d) ∈ visited node names ∧ name ∈ exportedAt inner d := by
  induction hlies generalizing names with
  | @mk span shape stands below ih =>
    have hlies : (Node.mk span shape).Lies source := .mk stands below
    have hchild : ∀ inside c, (inside, c) ∈ lookedInto ⟨span, shape⟩ shape.placed →
        (.exported name ∈ findings c (names.within ⟨span, shape⟩ inside) ↔
          ∃ inner d, (inner, d) ∈ visited c (names.within ⟨span, shape⟩ inside) ∧
            name ∈ exportedAt inner d) := fun inside c hc =>
      ih c (mem_children_of_lookedInto hc) (by rw [Names.imports_within, himports])
    rw [exported_iff_below hlies himports]
    constructor
    · rintro (hat | ⟨inside, c, hc, hfound⟩)
      · exact ⟨names, _, mem_visited_iff.2 (Or.inl rfl), hat⟩
      · obtain ⟨inner, d, hd, hat⟩ := (hchild inside c hc).1 hfound
        exact ⟨inner, d, mem_visited_iff.2 (Or.inr ⟨inside, c, hc, hd⟩), hat⟩
    · rintro ⟨inner, d, hd, hat⟩
      rcases mem_visited_iff.1 hd with heq | ⟨inside, c, hc, hd⟩
      · cases heq
        exact Or.inl hat
      · exact Or.inr ⟨inside, c, hc, (hchild inside c hc).2 ⟨inner, d, hd, hat⟩⟩

/-! ## Programs -/

/-- Whether a statement imports or exports by its syntax. -/
def isModuleSyntax (node : Node) : Bool :=
  match node.shape with
  | .importDecl .. | .exportAll .. | .exportFrom .. | .exportNames .. | .exportDecl _
  | .exportDefault _ => true
  | _ => false

/-- Whether a program has neither import nor export statements. -/
def IsScript (program : Program) : Prop :=
  ∀ node ∈ statementsOf program, isModuleSyntax node = false

instance (program : Program) : Decidable (IsScript program) :=
  inferInstanceAs (Decidable (∀ node ∈ statementsOf program, isModuleSyntax node = false))

/-- The names of a program that imports nothing, at its top. -/
def scriptNames (program : Program) : Names := ⟨[], program.tree.shape.frame, []⟩

/-- Every tree of a program, with the names where it stands. -/
def placesIn (program : Program) : List (Names × Node) :=
  (statementsOf program).flatMap fun node => places node (scriptNames program)

/-- Every tree of a program that a scan looks into. -/
def visitedIn (program : Program) : List (Names × Node) :=
  (statementsOf program).flatMap fun node => visited node (scriptNames program)

/-- **Whether a program assigns a name to its exports,** in whatever form and wherever. -/
def AssignsIn (program : Program) (name : String) : Prop :=
  ∃ names d form, (names, d) ∈ placesIn program ∧ Assigns names name form d

/-- **Whether a scan lists what a program assigns:** `default`, and every name that is
assigned but the mark of a former module. -/
def ListsAssigned (program : Program) (scan : Scan) : Prop :=
  ∀ name, name ∈ scan.localExports ↔
    name = "default" ∨ name ≠ interopMark ∧ AssignsIn program name

/-- Whether options that are left out assign a name. -/
def AssignsLeftOut (program : Program) (name : String) : Prop :=
  ∃ inner call options names d form, (inner, call) ∈ visitedIn program ∧
    leftOut? call = some options ∧ (names, d) ∈ places options inner ∧ Assigns names name form d

/-- Whether a tree that is looked into is taken to export a name: by assigning it, where
the mark only counts in an object, or past a list of arguments. -/
def ReadsIn (program : Program) (name : String) : Prop :=
  ∃ names d, (names, d) ∈ visitedIn program ∧
    ((∃ form, Assigns names name form d ∧ (name = interopMark → form = .object)) ∨
      name ≠ interopMark ∧ DefinesPastList names name d)

/-- **Programs that are read as they are meant.** -/
structure ReadsTrue (program : Program) : Prop where
  /-- No object that is looked into makes the mark an export. -/
  unmarked : ∀ names d, (names, d) ∈ visitedIn program → ¬ Assigns names interopMark .object d
  /-- What is assigned in options that are left out is also read elsewhere. -/
  elsewhere : ∀ name, name ≠ "default" → name ≠ interopMark → AssignsLeftOut program name →
    ReadsIn program name
  /-- What is read past a list of arguments is also assigned. -/
  assigned : ∀ name, name ≠ "default" → name ≠ interopMark → ∀ names d,
    (names, d) ∈ visitedIn program → DefinesPastList names name d → AssignsIn program name

/-- **What a scan reports of a program that assigns its exports.** -/
structure ReportsAssigned (program : Program) (scan : Scan) : Prop where
  kind : scan.kind = .assigned
  default : "default" ∈ scan.localExports
  /-- Besides, what the trees that are looked into are taken to export. -/
  mem_iff : ∀ name, name ∈ scan.localExports ↔ name = "default" ∨ ReadsIn program name
  /-- The mark is reported exactly where an object makes it an export. -/
  mark_iff : interopMark ∈ scan.localExports ↔
    ∃ names d, (names, d) ∈ visitedIn program ∧ Assigns names interopMark .object d
  /-- That is what the program assigns exactly where it is read as it is meant. -/
  lists_iff : ListsAssigned program scan ↔ ReadsTrue program

theorem declared?_of_isModuleSyntax (h : isModuleSyntax node = false)
    (isReferenced : String → Bool) : declared? isReferenced node = none := by
  unfold declared?
  split
  all_goals first | rfl | (rename_i heq; rw [isModuleSyntax, heq] at h; cases h)

theorem localOf_of_isModuleSyntax (h : isModuleSyntax node = false) (chars : List Char)
    (names : Names) : localOf chars names node = { findings := findings node names } := by
  unfold localOf
  split
  all_goals first | rfl | (rename_i heq; rw [isModuleSyntax, heq] at h; cases h)

namespace IsScript

variable {program : Program}

theorem declaredIn_eq (h : IsScript program) (treeshake : Bool) :
    declaredIn program treeshake = [] := by
  rw [Module.declaredIn_eq, List.filterMap_eq_nil_iff]
  exact fun node hnode => declared?_of_isModuleSyntax (h node hnode) _

theorem topNames_eq (h : IsScript program) (treeshake : Bool) :
    topNames program treeshake = scriptNames program := by
  rw [topNames, h.declaredIn_eq]
  rfl

theorem foundIn_eq (h : IsScript program) (source : String) (treeshake : Bool) :
    foundIn source program treeshake =
      (statementsOf program).flatMap fun node => findings node (scriptNames program) := by
  rw [foundIn, h.topNames_eq]
  refine List.flatMap_congr fun node hnode => ?_
  rw [localOf_of_isModuleSyntax (h node hnode)]

/-- Nothing is declared in a script, so what is found is reported. -/
theorem scan_eq (h : IsScript program) (source : String) (treeshake : Bool) :
    (Scan.ofProgram source program treeshake).kind = .assigned ∧
      (Scan.ofProgram source program treeshake).localExports =
        .ofList (findingNames (foundIn source program treeshake) ++ ["default"]) := by
  have hnone : (!(declaredIn program treeshake).isEmpty ||
      ((statementsOf program).map (localOf source.toList (topNames program treeshake))).any
        (·.isDeclaration)) = false := by
    rw [h.declaredIn_eq, List.any_map, List.isEmpty_nil, Bool.not_true, Bool.false_or,
      List.any_eq_false]
    intro node hnode
    rw [Function.comp_apply, localOf_of_isModuleSyntax (h node hnode)]
    exact Bool.false_ne_true
  rw [foundIn, ← List.flatMap_map _ Local.findings]
  exact ⟨if_neg (Bool.eq_false_iff.1 hnone), if_neg (Bool.eq_false_iff.1 hnone)⟩

end IsScript

/-- The trees of a program are looked into, or stand in options that are left out. -/
theorem mem_placesIn_iff {program : Program} : (names, d) ∈ placesIn program ↔
    (names, d) ∈ visitedIn program ∨ ∃ inner call options, (inner, call) ∈ visitedIn program ∧
      leftOut? call = some options ∧ (names, d) ∈ places options inner := by
  constructor
  · intro h
    obtain ⟨node, hnode, h⟩ := List.mem_flatMap.1 h
    rcases mem_places_iff_visited.1 h with h | ⟨inner, call, options, hcall, hleft, h⟩
    · exact Or.inl (List.mem_flatMap.2 ⟨node, hnode, h⟩)
    · exact Or.inr ⟨inner, call, options, List.mem_flatMap.2 ⟨node, hnode, hcall⟩, hleft, h⟩
  · rintro (h | ⟨inner, call, options, hcall, hleft, h⟩)
    · obtain ⟨node, hnode, h⟩ := List.mem_flatMap.1 h
      exact List.mem_flatMap.2 ⟨node, hnode, mem_places_iff_visited.2 (Or.inl h)⟩
    · obtain ⟨node, hnode, hcall⟩ := List.mem_flatMap.1 hcall
      exact List.mem_flatMap.2 ⟨node, hnode,
        mem_places_iff_visited.2 (Or.inr ⟨inner, call, options, hcall, hleft, h⟩)⟩

theorem assignsIn_iff {program : Program} : AssignsIn program name ↔
    (∃ names d form, (names, d) ∈ visitedIn program ∧ Assigns names name form d) ∨
      AssignsLeftOut program name := by
  constructor
  · rintro ⟨names, d, form, hplace, hassigns⟩
    rcases mem_placesIn_iff.1 hplace with hvisited | ⟨inner, call, options, hcall, hleft, h⟩
    · exact Or.inl ⟨names, d, form, hvisited, hassigns⟩
    · exact Or.inr ⟨inner, call, options, names, d, form, hcall, hleft, h, hassigns⟩
  · rintro (⟨names, d, form, hvisited, hassigns⟩ |
      ⟨inner, call, options, names, d, form, hcall, hleft, h, hassigns⟩)
    · exact ⟨names, d, form, mem_placesIn_iff.2 (Or.inl hvisited), hassigns⟩
    · exact ⟨names, d, form, mem_placesIn_iff.2 (Or.inr ⟨inner, call, options, hcall, hleft, h⟩),
        hassigns⟩

/-- **What is reported of a script,** name by name. -/
theorem mem_localExports_iff {source : String} {program : Program}
    (hlies : program.tree.Lies source.toList) (hscript : IsScript program) (treeshake : Bool) :
    name ∈ (Scan.ofProgram source program treeshake).localExports ↔ name = "default" ∨
      ∃ names d, (names, d) ∈ visitedIn program ∧ name ∈ exportedAt names d := by
  rw [(hscript.scan_eq source treeshake).2, OrderedSet.mem_ofList, List.mem_append,
    List.mem_singleton, mem_findingNames, hscript.foundIn_eq, List.mem_flatMap, or_comm]
  refine or_congr Iff.rfl ⟨?_, ?_⟩
  · rintro ⟨node, hnode, hfound⟩
    have hnode' := hlies.child ((statementsOf_sublist program).subset hnode)
    obtain ⟨names, d, hvisited, hat⟩ := (exported_iff_visited hnode' rfl).1 hfound
    exact ⟨names, d, List.mem_flatMap.2 ⟨node, hnode, hvisited⟩, hat⟩
  · rintro ⟨names, d, hvisited, hat⟩
    obtain ⟨node, hnode, hvisited⟩ := List.mem_flatMap.1 hvisited
    have hnode' := hlies.child ((statementsOf_sublist program).subset hnode)
    exact ⟨node, hnode, (exported_iff_visited hnode' rfl).2 ⟨names, d, hvisited, hat⟩⟩

theorem readsIn_interopMark {program : Program} : ReadsIn program interopMark ↔
    ∃ names d, (names, d) ∈ visitedIn program ∧ Assigns names interopMark .object d := by
  refine exists₂_congr fun names d => and_congr Iff.rfl ⟨?_, fun h => ?_⟩
  · rintro (⟨form, h, hform⟩ | ⟨hmark, -⟩)
    · exact hform rfl ▸ h
    · exact absurd rfl hmark
  · exact Or.inl ⟨.object, h, fun _ => rfl⟩

/-- What is read is assigned, or read past a list of arguments. -/
theorem ReadsIn.assigned {program : Program} (h : ReadsIn program name) :
    AssignsIn program name ∨ name ≠ interopMark ∧
      ∃ names d, (names, d) ∈ visitedIn program ∧ DefinesPastList names name d := by
  obtain ⟨names, d, hvisited, ⟨form, hassigns, -⟩ | ⟨hmark, hlist⟩⟩ := h
  · exact Or.inl (assignsIn_iff.2 (Or.inl ⟨names, d, form, hvisited, hassigns⟩))
  · exact Or.inr ⟨hmark, names, d, hvisited, hlist⟩

/-- Where a scan lists what is assigned, the program is read as it is meant. -/
theorem readsTrue_of_lists {program : Program} {scan : Scan}
    (h : ∀ name, name ∈ scan.localExports ↔ name = "default" ∨ ReadsIn program name)
    (hlists : ListsAssigned program scan) : ReadsTrue program := by
  have hreads : ∀ name, name ≠ "default" → (ReadsIn program name ↔
      name ≠ interopMark ∧ AssignsIn program name) := fun name hname => by
    have hboth := (h name).symm.trans (hlists name)
    rwa [or_iff_right hname, or_iff_right hname] at hboth
  refine ⟨fun names d hvisited hassigns => ?_, fun name hname hmark hassigns => ?_,
    fun name hname hmark names d hvisited hlist => ?_⟩
  · have hmarked := readsIn_interopMark.2 ⟨names, d, hvisited, hassigns⟩
    exact ((hreads interopMark (by decide)).1 hmarked).1 rfl
  · exact (hreads name hname).2 ⟨hmark, assignsIn_iff.2 (Or.inr hassigns)⟩
  · exact ((hreads name hname).1 ⟨names, d, hvisited, Or.inr ⟨hmark, hlist⟩⟩).2

/-- Of a program that is read as it is meant, what is assigned is read. -/
theorem ReadsTrue.readsIn_iff {program : Program} (h : ReadsTrue program)
    (hname : name ≠ "default") :
    ReadsIn program name ↔ name ≠ interopMark ∧ AssignsIn program name := by
  constructor
  · intro hreads
    have hmark : name ≠ interopMark := by
      rintro rfl
      obtain ⟨names, d, hvisited, hassigns⟩ := readsIn_interopMark.1 hreads
      exact h.unmarked names d hvisited hassigns
    rcases hreads.assigned with hassigns | ⟨-, names, d, hvisited, hlist⟩
    · exact ⟨hmark, hassigns⟩
    · exact ⟨hmark, h.assigned name hname hmark names d hvisited hlist⟩
  · rintro ⟨hmark, hassigns⟩
    rcases assignsIn_iff.1 hassigns with ⟨names, d, form, hvisited, hassigns⟩ | hleft
    · exact ⟨names, d, hvisited, Or.inl ⟨form, hassigns, fun h => absurd h hmark⟩⟩
    · exact h.elsewhere name hname hmark hleft

/-- A scan lists what is assigned exactly where nothing is read otherwise. -/
theorem listsAssigned_iff {program : Program} {scan : Scan}
    (h : ∀ name, name ∈ scan.localExports ↔ name = "default" ∨ ReadsIn program name) :
    ListsAssigned program scan ↔ ReadsTrue program := by
  refine ⟨readsTrue_of_lists h, fun htrue name => ?_⟩
  rw [h]
  by_cases hname : name = "default"
  · exact iff_of_true (Or.inl hname) (Or.inl hname)
  · rw [or_iff_right hname, or_iff_right hname, htrue.readsIn_iff hname]

/-- **What a scan reports of a program that assigns its exports:** `default` and the names
that are assigned, exactly where the program is read as it is meant, and the mark of a
former module exactly where an object makes it an export. -/
theorem reportsAssigned_ofProgram {source : String} {program : Program} {dialect : Dialect}
    (huntyped : dialect.typed = false) (hplain : dialect.markup = false)
    (h : Program.parse? dialect source = some program) (hscript : IsScript program)
    (treeshake : Bool) : ReportsAssigned program (Scan.ofProgram source program treeshake) := by
  have hlies := (Program.parse?_lies huntyped hplain h).1
  have hmem : ∀ name, name ∈ (Scan.ofProgram source program treeshake).localExports ↔
      name = "default" ∨ ReadsIn program name := fun name =>
    (mem_localExports_iff hlies hscript treeshake).trans
      (or_congr Iff.rfl (exists₂_congr fun names d => and_congr Iff.rfl mem_exportedAt_iff))
  refine ⟨(hscript.scan_eq source treeshake).1, (hmem _).2 (Or.inl rfl), hmem, ?_,
    listsAssigned_iff hmem⟩
  rw [hmem, or_iff_right (by decide), readsIn_interopMark]

/-- A source that assigns to its exports in every form, one in another and in a method,
and to a name of its own that is called like them. -/
def ledger : String :=
  "exports.entry = exports.late = 1;\n" ++
  "Object.defineProperty(exports, 'sum', \x7b\x7d);\n" ++
  "module.exports = \x7b open, 'no-op'() \x7b exports.__esModule = 2; \x7d \x7d;\n" ++
  "exports => exports.own = 3;\n"

theorem ledger_reportsAssigned : ∃ program, Program.parse? {} ledger = some program ∧
    IsScript program ∧ ReportsAssigned program (Scan.ofProgram ledger program true) ∧
      (Scan.ofProgram ledger program true).localExports.toList =
        ["entry", "late", "sum", "open", "no-op", "default"] := by
  obtain ⟨program, hprogram, hscript, hlist⟩ := (by decide +kernel :
    ∃ program ∈ Program.parse? {} ledger, IsScript program ∧
      (Scan.ofProgram ledger program true).localExports.toList =
        ["entry", "late", "sum", "open", "no-op", "default"])
  exact ⟨program, hprogram, hscript, reportsAssigned_ofProgram rfl rfl hprogram hscript true,
    hlist⟩

/-- A source that marks itself as a former module in the object that it assigns. -/
def marked : String := "module.exports = \x7b __esModule: true, a: 1 \x7d;\n"

/-- **The mark is reported** where an object makes it an export. -/
theorem marked_reported : ∃ program, Program.parse? {} marked = some program ∧
    IsScript program ∧ interopMark ∈ (Scan.ofProgram marked program true).localExports ∧
      ¬ ListsAssigned program (Scan.ofProgram marked program true) := by
  obtain ⟨program, hprogram, hscript, hmark⟩ := (by decide +kernel :
    ∃ program ∈ Program.parse? {} marked, IsScript program ∧
      interopMark ∈ (Scan.ofProgram marked program true).localExports)
  refine ⟨program, hprogram, hscript, hmark, fun hlists => ?_⟩
  rcases (hlists interopMark).1 hmark with hdefault | ⟨hne, -⟩
  · exact absurd hdefault (by decide)
  · exact hne rfl

end DepBundle.Module
