import DepBundle.Module.Scan
import DepBundle.Package.Synthesis
import DepBundle.Proofs.Package.Bindings
import DepBundle.Proofs.Syntax.Program
/-!
# Packages — how stand-in modules are read

The source of a stand-in is a program of one statement (`parse?_synthesize`),
which passes on what was asked of the package: everything, some names, or
nothing. Its scan has one request, for the package, and exports the names
that were listed (`scan_synthesize`). So whatever is asked of a package, in
whatever characters, can be read off the source again (`synthesize_readBack`).
-/

namespace DepBundle.Package

open DepBundle.Syntax DepBundle.Syntax.Grammar DepBundle.Module

variable {package name : String} {b : Bindings} {names : OrderedSet String}

/-! ## The text -/

theorem toList_synthesize_all : (synthesize package .all).toList =
    "export".toList ++ ' ' :: '*' :: fromClause package := by
  simp [synthesize, fromClause]

theorem toList_synthesize_plain (h : names.isEmpty) :
    (synthesize package (.named names)).toList =
      "import".toList ++ (' ' :: (Text.quoted package).toList ++ [';', '\n']) := by
  simp [synthesize, h]

/-- Names with commas between them. -/
theorem toList_intercalate_names (name : String) (more : List String) :
    (", ".intercalate ((name :: more).map Text.clauseName)).toList =
      (Text.clauseName name).toList ++ moreNames more := by
  induction more generalizing name with
  | nil => simp [moreNames]
  | cons second more ih =>
    rw [List.map_cons, List.map_cons, String.intercalate_cons_cons, ← List.map_cons]
    simp only [String.toList_append, ih]
    simp [moreNames]

theorem toList_synthesize_names (package : String) {more : List String} (h : names.toList = name :: more) :
    (synthesize package (.named names)).toList =
      "export".toList ++ ' ' :: '\x7b' :: (' ' :: (Text.clauseName name).toList ++
        (moreNames more ++ ' ' :: '\x7d' :: fromClause package)) := by
  have hne : names.isEmpty = false := by rw [OrderedSet.isEmpty, h]; rfl
  simp only [synthesize, hne, h, Bool.false_eq_true, if_false, String.toList_append,
    toList_intercalate_names]
  simp [fromClause]

/-- A list is as long as it has names, at least. -/
theorem length_le_moreNames (more : List String) : more.length ≤ (moreNames more).length := by
  induction more with
  | nil => simp
  | cons name more ih =>
    simp only [moreNames, List.flatMap_cons, List.length_append, List.length_cons] at ih ⊢
    omega

theorem length_lt_synthesize {more : List String} (h : names.toList = name :: more) :
    more.length < (synthesize package (.named names)).toList.length := by
  have hmore := length_le_moreNames more
  rw [toList_synthesize_names package h]
  simp only [List.length_append, List.length_cons]
  omega

/-! ## The statement -/

/-- **What a stand-in states.** -/
inductive Restates (package : String) : Bindings → Node → Prop where
  | all {node : Node} (source : Node) (hshape : node.shape = .exportAll false none source none)
      (hsource : source.clauseText = package) : Restates package .all node
  | names {node : Node} {names : OrderedSet String} (items : List Node) (source : Node)
      (hshape : node.shape = .exportFrom false items source none)
      (hitems : List.Forall₂ PassesOn items names.toList) (hsource : source.clauseText = package)
      (hne : items ≠ []) : Restates package (.named names) node
  | plain {node : Node} {names : OrderedSet String} (source : Node)
      (hshape : node.shape = .importDecl false false [] source none)
      (hsource : source.clauseText = package) (hempty : names.toList = []) :
      Restates package (.named names) node

variable {node : Node}

/-- A list of names exports its names. -/
theorem exportedNames_eq {items : List Node} {source : Node} {l : List String}
    (hshape : node.shape = .exportFrom false items source none)
    (hitems : List.Forall₂ PassesOn items l) : node.exportedNames = l := by
  rw [Node.exportedNames, hshape]
  change items.map _ = l
  clear hshape
  induction hitems with
  | nil => rfl
  | cons hitem _ ih =>
    obtain ⟨inner, hshape, htext⟩ := hitem
    rw [List.map_cons, ih, hshape]
    simp [htext]

/-- No name is exported twice. -/
theorem Restates.nodup_exportedNames (h : Restates package b node) :
    node.exportedNames.Nodup := by
  cases h with
  | all source hshape => simp [Node.exportedNames, hshape]
  | @names _ names items source hshape hitems =>
    rw [exportedNames_eq hshape hitems]
    exact names.nodup
  | plain source hshape => simp [Node.exportedNames, hshape]

/-- **The source of a stand-in is the program of its statement.** -/
theorem parse?_synthesize {dialect : Dialect} (huntyped : dialect.typed = false)
    (package : String) (b : Bindings) :
    ∃ program node, Program.parse? dialect (synthesize package b) = some program ∧
      program.tree.shape = .program [node] ∧ Restates package b node := by
  have hblank : ∀ cs, Parts (' ' :: cs) := fun cs d hd => by
    cases hd
    decide
  have hnodup : ∀ node, Restates package b node → node.exportedNames.Nodup :=
    fun _ h => h.nodup_exportedNames
  -- each kind of bindings is one statement, read back by its own lemma
  cases b with
  | all =>
    refine parse?_of_statement huntyped (by decide) toList_synthesize_all (hblank _)
      (fun sub place hplace => ?_) hnodup
    obtain ⟨node, source, after, hrun, hshape, hsource, hafter⟩ := anyStatement_exportAll hplace
    exact ⟨node, after, hrun, .all source hshape hsource, hafter⟩
  | named names =>
    cases hnames : names.toList with
    | nil =>
      have hempty : names.isEmpty := by
        rw [OrderedSet.isEmpty, hnames]
        rfl
      refine parse?_of_statement huntyped (by decide) (toList_synthesize_plain hempty) (hblank _)
        (fun sub place hplace => ?_) hnodup
      obtain ⟨node, source, after, hrun, hshape, hsource, hafter⟩ := anyStatement_import hplace
      exact ⟨node, after, hrun, .plain source hshape hsource hnames, hafter⟩
    | cons name more =>
      have hlimit : more.length < (synthesize package (.named names)).toList.length + 2 :=
        Nat.lt_add_right 2 (length_lt_synthesize hnames)
      refine parse?_of_statement huntyped (by decide) (toList_synthesize_names package hnames)
        (hblank _) (fun sub place hplace => ?_) hnodup
      obtain ⟨node, items, source, after, hrun, hshape, hitems, hsource, hafter⟩ :=
        anyStatement_exportNames hlimit hplace
      refine ⟨node, after, hrun, .names items source hshape (hnames ▸ hitems) hsource ?_, hafter⟩
      rintro rfl
      cases hitems

/-! ## The scan -/

/-- The scan of a program that is one statement and names another module. -/
theorem scan_of_statement (source : String) (treeshake : Bool) {program : Program} {d : Declared}
    (hshape : program.tree.shape = .program [node])
    (hdeclared : ∀ isReferenced, declared? isReferenced node = some d)
    (hlocal : ∀ chars names, localOf chars names node = {}) :
    (Scan.ofProgram source program treeshake).records = [d.record] ∧
      (Scan.ofProgram source program treeshake).exports =
        d.exports.map (fun e => (e.1, .imported 0 e.2)) ∧
      (Scan.ofProgram source program treeshake).localExports = .ofList (d.exports.map (·.1)) ∧
      (Scan.ofProgram source program treeshake).kind = .declared := by
  have hmap : (d.exports.map fun e => (e.1, Origin.imported 0 e.2)).map (·.1) =
      d.exports.map (·.1) := by
    rw [List.map_map]
    rfl
  simp only [Scan.ofProgram, hshape, hlocal, List.filterMap_cons, hdeclared, List.filterMap_nil,
    List.map_cons, List.map_nil, List.flatMap_cons, List.flatMap_nil, List.append_nil,
    List.zipIdx_cons, List.zipIdx_nil, List.isEmpty_cons, Bool.not_false, Bool.true_or, if_true]
  exact ⟨trivial, trivial, congrArg OrderedSet.ofList hmap, trivial⟩

/-- The names that are listed. -/
def Bindings.listed : Bindings → List String
  | all => []
  | named names => names.toList

/-- What a stand-in asks of its package. -/
def Bindings.request (package : String) : Bindings → Record
  | all => ⟨package, .statement, .star, false, false⟩
  | named names =>
    if names.isEmpty then ⟨package, .statement, .bindings [], true, false⟩
    else ⟨package, .statement, .reexport (names.toList.map fun name => (.ofText name, name)), false,
      false⟩

/-- **What the scan of a stand-in says.** It asks for its package and
nothing else, and exports itself what is listed. -/
structure Restated (scan : Scan) (package : String) (b : Bindings) : Prop where
  records : scan.records = [b.request package]
  localExports : scan.localExports = .ofList b.listed

/-- A list of names asks for its names and exports them. -/
theorem declared?_exportFrom {items : List Node} {source : Node} {l : List String}
    {isReferenced : String → Bool} (hshape : node.shape = .exportFrom false items source none)
    (hitems : List.Forall₂ PassesOn items l) : declared? isReferenced node = some
      { record := ⟨source.clauseText, .statement,
          .reexport (l.map fun name => (.ofText name, name)), l.isEmpty, false⟩
        span := node.span
        exports := l.map fun name => (name, .ofText name) } := by
  rw [declared?, hshape]
  -- of the reader only what it does to a name that is passed on matters
  have hpassed : ∀ f : Node → Option (ImportedName × String),
      (∀ item name, PassesOn item name → f item = some (.ofText name, name)) →
      items.filterMap f = l.map fun name => (.ofText name, name) := by
    intro f hf
    clear hshape
    induction hitems with
    | nil => rfl
    | cons hitem _ ih => rw [List.filterMap_cons_some (hf _ _ hitem), ih, List.map_cons]
  simp only
  rw [hpassed]
  · simp [Function.comp_def]
  · rintro item name ⟨inner, hinner, rfl⟩
    rw [hinner]
    rfl

/-- An import without names asks for nothing but the module. -/
theorem declared?_import {source : Node} {isReferenced : String → Bool}
    (hshape : node.shape = .importDecl false false [] source none) :
    declared? isReferenced node = some
      { record := ⟨source.clauseText, .statement, .bindings [], true, false⟩, span := node.span } := by
  rw [declared?, hshape]
  rfl

/-- Nothing is exported but through the package. -/
theorem Restates.localOf_eq (h : Restates package b node) (chars : List Char) (names : Names) :
    localOf chars names node = {} := by
  cases h with
  | all source hshape => rw [localOf, hshape]
  | names items source hshape => rw [localOf, hshape]
  | plain source hshape => rw [localOf, hshape]

/-- A statement declares what was asked for. -/
theorem Restates.exists_declared (h : Restates package b node) : ∃ d : Declared,
    (∀ isReferenced, declared? isReferenced node = some d) ∧ d.record = b.request package ∧
      d.exports = b.listed.map fun name => (name, .ofText name) := by
  cases h with
  | all inner hshape hsource =>
    refine ⟨_, fun isReferenced => by rw [declared?, hshape], ?_, rfl⟩
    rw [Bindings.request, hsource]
  | @names _ names items inner hshape hitems hsource hne =>
    refine ⟨_, fun isReferenced => declared?_exportFrom hshape hitems, ?_, rfl⟩
    have hlisted : names.toList.isEmpty = false := by
      rw [List.isEmpty_eq_false_iff]
      intro hnil
      rw [hnil] at hitems
      cases hitems
      exact hne rfl
    rw [Bindings.request, OrderedSet.isEmpty, hlisted, hsource]
    rfl
  | @plain _ names inner hshape hsource hempty =>
    refine ⟨_, fun isReferenced => declared?_import hshape, ?_, ?_⟩
    · rw [Bindings.request, OrderedSet.isEmpty, hempty, hsource]
      rfl
    · rw [Bindings.listed, hempty]
      rfl

/-- **What is stated is what is scanned.** -/
theorem Restates.scanned {program : Program} (source : String) (treeshake : Bool)
    (hprogram : program.tree.shape = .program [node]) (h : Restates package b node) :
    (Scan.ofProgram source program treeshake).records = [b.request package] ∧
      (Scan.ofProgram source program treeshake).exports =
        b.listed.map (fun name => (name, .imported 0 (.ofText name))) ∧
      (Scan.ofProgram source program treeshake).localExports = .ofList b.listed ∧
      (Scan.ofProgram source program treeshake).kind = .declared := by
  obtain ⟨d, hdeclared, hrecord, hexports⟩ := h.exists_declared
  obtain ⟨hrecords, hreexports, hlocal, hkind⟩ :=
    scan_of_statement source treeshake hprogram hdeclared h.localOf_eq
  refine ⟨hrecords.trans (by rw [hrecord]), ?_, ?_, hkind⟩
  · rw [hreexports, hexports, List.map_map]
    rfl
  · rw [hlocal, hexports, List.map_map]
    exact congrArg OrderedSet.ofList (List.map_id _)

/-- **The source of a stand-in is read and scanned as what was asked.** -/
theorem scan_synthesize {dialect : Dialect} (huntyped : dialect.typed = false) (package : String)
    (b : Bindings) (treeshake : Bool) :
    ∃ program, Program.parse? dialect (synthesize package b) = some program ∧
      Restated (Scan.ofProgram (synthesize package b) program treeshake) package b := by
  obtain ⟨program, node, hparse, hprogram, hrestates⟩ := parse?_synthesize huntyped package b
  obtain ⟨hrecords, -, hlocal, -⟩ :=
    hrestates.scanned (synthesize package b) treeshake hprogram
  exact ⟨program, hparse, hrecords, hlocal⟩

/-! ## Reading back what was asked -/

/-- What reading a name and exporting it as itself reads. -/
def ownName (name : String) : ImportedName := if name = "default" then .default else .named name

theorem ofText_eq_ownName (h : name ≠ wildcard) : ImportedName.ofText name = ownName name := by
  have hstar : name ≠ "*" := h
  rw [ImportedName.ofText, if_neg hstar, ownName]

/-- **What is asked of a package can be read off a scan.** -/
structure ReadsBack (scan : Scan) (package : String) (b : Bindings) : Prop where
  /-- The scan is that of a module by its syntax. -/
  kind : scan.kind = .declared
  /-- Where everything is asked for, everything is passed on, -/
  all : b = .all → scan.records = [⟨package, .statement, .star, false, false⟩] ∧ scan.exports = []
  /-- where nothing is, the package is only loaded, -/
  nothing : b = .none →
    scan.records = [⟨package, .statement, .bindings [], true, false⟩] ∧ scan.exports = []
  /-- and where some names are, they are passed on in order, each as itself. -/
  names : ∀ names, b = .named names → names.toList ≠ [] →
    scan.records = [⟨package, .statement,
      .reexport (names.toList.map fun name => (ownName name, name)), false, false⟩] ∧
    scan.exports = names.toList.map fun name => (name, .imported 0 (ownName name))
  /-- What is exported is what is listed. -/
  localExports : scan.localExports.toList = b.listed

/-- **The source of a stand-in says what was asked of its package,** whatever
characters it is named in. -/
theorem synthesize_readBack {dialect : Dialect} (huntyped : dialect.typed = false)
    (package : String) (asked : Gathering) (treeshake : Bool) :
    ∃ program, Program.parse? dialect (synthesize package asked.bindings) = some program ∧
      ReadsBack (Scan.ofProgram (synthesize package asked.bindings) program treeshake) package
        asked.bindings := by
  obtain ⟨program, node, hparse, hprogram, hrestates⟩ :=
    parse?_synthesize huntyped package asked.bindings
  obtain ⟨hrecords, hexports, hlocal, hkind⟩ :=
    hrestates.scanned (synthesize package asked.bindings) treeshake hprogram
  have hgathers := asked.gathers
  refine ⟨program, hparse, ⟨hkind, fun hall => ?_, fun hnone => ?_, fun names hnames hne => ?_, ?_⟩⟩
  · rw [hrecords, hexports, hall]
    exact ⟨rfl, rfl⟩
  · rw [hrecords, hexports, hnone]
    exact ⟨rfl, rfl⟩
  · -- the name for everything is never one of the names
    rw [hnames] at hgathers
    have hown : ∀ name ∈ names.toList, ImportedName.ofText name = ownName name :=
      fun name hname => ofText_eq_ownName fun heq => hgathers.1 (heq ▸ (hgathers.2 name).1 hname)
    have hempty : names.isEmpty = false := by
      rw [OrderedSet.isEmpty, List.isEmpty_eq_false_iff]
      exact hne
    rw [hrecords, hexports, hnames, Bindings.request, hempty, Bindings.listed,
      List.map_congr_left fun name hname => by rw [hown name hname]]
    refine ⟨rfl, List.map_congr_left fun name hname => by rw [hown name hname]⟩
  · rw [hlocal]
    cases asked.bindings with
    | all => rfl
    | named names => exact congrArg OrderedSet.toList (OrderedSet.ofList_toList names)

/-- Two names and the default of a package. -/
def fooAndMore : Gathering := .both (.names ["foo", "default"]) (.names ["foo", "a-b"])

theorem fooAndMore_readBack : ({ isModule := true } : Dialect).typed = false ∧
    synthesize "left-pad" fooAndMore.bindings =
      "export \x7b foo, default, \"a-b\" \x7d from \"left-pad\";\n" ∧
    ∃ program, Program.parse? { isModule := true } (synthesize "left-pad" fooAndMore.bindings) =
        some program ∧
      ReadsBack (Scan.ofProgram (synthesize "left-pad" fooAndMore.bindings) program true) "left-pad"
        fooAndMore.bindings :=
  ⟨rfl, by decide +kernel, synthesize_readBack rfl "left-pad" fooAndMore true⟩

end DepBundle.Package
