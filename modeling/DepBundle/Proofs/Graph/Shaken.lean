import DepBundle.Proofs.Graph.Task
import Mathlib.Data.List.Basic
/-!
# Graphs — what is left out where nothing is read

Whether bindings that nothing refers to count decides what a request reads,
never which requests a program makes (`requests_ofProgram`). So a module
whose unused bindings are left out still asks for everything of the host
that it asks for otherwise (`Task.exists_request_of_unshaken`).
-/

namespace DepBundle

namespace Module

/-- What a record asks for, and how, whatever is read from it. -/
def Record.request (r : Record) : String × ImportKind := (r.specifier, r.kind)

/-- The requests that a program makes. -/
def Scan.requests (scan : Scan) : List (String × ImportKind) := scan.records.map Record.request

/-- What a statement that names another module says, but for which of its
bindings something refers to. -/
def Declared.outline (d : Declared) : (String × ImportKind) × List (String × ImportedName) :=
  (d.record.request, d.bindings)

/-- The bindings of a statement are bound whether or not anything refers to
them. -/
theorem outline_declared? (isReferenced isReferenced' : String → Bool) (node : Syntax.Node) :
    (declared? isReferenced node).map Declared.outline =
      (declared? isReferenced' node).map Declared.outline := by
  rw [declared?, declared?]
  -- only the bindings of an `import` say whether anything refers to them
  cases node.shape with
  | importDecl _ _ specifiers source _ =>
    refine congrArg
      (fun bindings => some ((source.clauseText, ImportKind.statement), bindings)) ?_
    simp only [List.map_filterMap]
    refine List.filterMap_congr fun item _ => ?_
    cases item.shape <;> rfl
  | exportAll _ exported _ _ => cases exported <;> rfl
  | _ => rfl

/-- The names that statements bind, with what each reads. -/
def boundNames (declared : List Declared) : List (String × Nat × ImportedName) :=
  (declared.zipIdx.flatMap fun (d, record) =>
    d.bindings.map fun (name, imported) => (name, record, imported)).reverse

theorem boundNames_eq (declared : List Declared) : boundNames declared =
    ((declared.map Declared.outline).zipIdx.flatMap fun (outline, record) =>
      outline.2.map fun (name, imported) => (name, record, imported)).reverse := by
  rw [boundNames, List.zipIdx_map, List.flatMap_map]
  rfl

/-- The statements of a program that name another module. -/
def declaredIn (program : Syntax.Program) (shaken : Bool) : List Declared :=
  let statements := match program.tree.shape with
    | .program items => items
    | _ => []
  let free := statements.flatMap Syntax.Node.freeNames
  statements.filterMap (declared? fun name => !shaken || free.contains name)

theorem outline_declaredIn (program : Syntax.Program) (shaken shaken' : Bool) :
    (declaredIn program shaken).map Declared.outline =
      (declaredIn program shaken').map Declared.outline := by
  rw [declaredIn, declaredIn]
  simp only [List.map_filterMap]
  exact List.filterMap_congr fun node _ => outline_declared? _ _ node

/-- What the calls of a program ask for, by the names that its statements
bind. -/
def calledIn (source : String) (program : Syntax.Program)
    (imports : List (String × Nat × ImportedName)) : List Record :=
  let statements := match program.tree.shape with
    | .program items => items
    | _ => []
  let names : Names := ⟨imports, program.tree.shape.frame, []⟩
  ((statements.map (localOf source.toList names)).flatMap (·.findings)).filterMap requestRecord?

theorem records_ofProgram (source : String) (program : Syntax.Program) (shaken : Bool) :
    (Scan.ofProgram source program shaken).records =
      (declaredIn program shaken).map (·.record) ++
        calledIn source program (boundNames (declaredIn program shaken)) := rfl

/-- **Which requests a program makes does not depend on what is read.** -/
theorem requests_ofProgram (source : String) (program : Syntax.Program) (shaken shaken' : Bool) :
    (Scan.ofProgram source program shaken).requests =
      (Scan.ofProgram source program shaken').requests := by
  have houtline := outline_declaredIn program shaken shaken'
  have hrequests : ∀ declared : List Declared, (declared.map (·.record)).map Record.request =
      (declared.map Declared.outline).map Prod.fst := fun declared => by
    rw [List.map_map, List.map_map]
    rfl
  rw [Scan.requests, Scan.requests, records_ofProgram, records_ofProgram, List.map_append,
    List.map_append, hrequests, hrequests, boundNames_eq, boundNames_eq, houtline]

end Module

namespace Graph

variable {around : Surroundings} {task task' : Task} {loaded loaded' : Loaded} {r : Resolved}
  {type : Module.FileType} {source id : String} {record record' : Module.Record}
  {request : Module.Record × Option Resolved}

/-- The same, but where bindings that nothing refers to count like others. -/
def Surroundings.unshaken (around : Surroundings) : Surroundings :=
  { around with settings := { around.settings with treeshake := false } }

namespace Task

/-- What a specifier stands for has nothing to do with what is read. -/
theorem standsFor_unshaken (h : record'.request = record.request) :
    standsFor around.unshaken id record' = standsFor around id record := by
  obtain ⟨hspecifier, hkind⟩ := Prod.mk.inj h
  rw [standsFor, standsFor, hspecifier, hkind]
  rfl

/-- What a module asks of the host has an effect. -/
theorem wanted_of_isExternal (h : (standsFor around id record).isExternal) :
    wanted around id record = some (standsFor around id record) := by
  rw [wanted, if_neg]
  simp [isIdle, h]

/-- The requests that are found where a module is. -/
def requestsIn (around : Surroundings) (task : Task) :
    Option (List (String × Module.ImportKind)) :=
  match found around task.module.id with
  | .script type source =>
    match task.plain around type source with
    | .ok (plain, dialect) => (scan? around plain dialect).map Module.Scan.requests
    | .error _ => none
  | _ => some []

/-- **A module makes the requests that its text makes.** -/
theorem requestsIn_of_load (h : load around task = .ok loaded) :
    requestsIn around task = some (loaded.imports.map fun request => request.1.request) := by
  rcases load_cases h with
    ⟨type, source, p, scan, warnings, hfound, hplain, hscan, rfl⟩ | ⟨type, body, hfound, rfl⟩
  · simp only [requestsIn, hfound, hplain, hscan, Option.map_some]
    rw [scanned, ← List.map_prod_left_eq_zip, List.map_map, List.map_map]
    rfl
  · rw [requestsIn, hfound]
    rfl

theorem requests_scan? (around : Surroundings) (source : String) (dialect : Syntax.Dialect) :
    (scan? around source dialect).map Module.Scan.requests =
      (Syntax.Program.parse? dialect source).map fun program =>
        (Module.Scan.ofProgram source program around.settings.treeshake).requests := by
  rw [scan?, Option.map_map]
  rfl

theorem requests_scan?_unshaken (around : Surroundings) (source : String)
    (dialect : Syntax.Dialect) : (scan? around.unshaken source dialect).map Module.Scan.requests =
      (scan? around source dialect).map Module.Scan.requests := by
  have hsame := funext fun program => Module.requests_ofProgram source program
    around.unshaken.settings.treeshake around.settings.treeshake
  rw [requests_scan?, requests_scan?, hsame]

/-- **Leaving out what is not read leaves out no request of a text.** -/
theorem requestsIn_unshaken (around : Surroundings) (hid : task'.module.id = task.module.id) :
    requestsIn around.unshaken task' = requestsIn around task := by
  have hfound : found around.unshaken task'.module.id = found around task.module.id := by
    rw [hid]
    rfl
  rw [requestsIn, requestsIn, hfound]
  cases found around task.module.id with
  | script type source =>
    have hplain' : task'.plain around.unshaken type source = task'.plain around type source := rfl
    simp only [hplain']
    rcases alike_plain around type source hid with
      ⟨p, hplain, hplain'⟩ | ⟨failures, failures', -, -, hplain, hplain'⟩
    · simp only [hplain, hplain']
      exact requests_scan?_unshaken around p.1 p.2
    · simp only [hplain, hplain']
  | whole type body => rfl
  | unreadable => rfl
  | malformedJson => rfl

/-- **Leaving out what is not read leaves out nothing of the host.** -/
theorem exists_request_of_unshaken (hload : load around task = .ok loaded)
    (hload' : load around.unshaken task' = .ok loaded') (hid : task'.module.id = task.module.id)
    (hrequest : request ∈ loaded'.imports) (hr : r ∈ request.2) (hexternal : r.isExternal) :
    ∃ request' ∈ loaded.imports, request'.1.request = request.1.request ∧ request'.2 = some r := by
  have hsame : loaded'.imports.map (fun request => request.1.request) =
      loaded.imports.map fun request => request.1.request := by
    have hrequests := requestsIn_unshaken around hid
    rw [requestsIn_of_load hload, requestsIn_of_load hload'] at hrequests
    exact Option.some.inj hrequests
  have hmem : request.1.request ∈ loaded.imports.map fun request => request.1.request :=
    hsame ▸ List.mem_map_of_mem hrequest
  obtain ⟨request', hrequest', heq⟩ := List.mem_map.1 hmem
  have hwanted := (loads_load hload').wanted request hrequest
  have hstands : standsFor around task.module.id request'.1 = r := by
    rw [← standsFor_unshaken heq.symm, ← hid]
    rw [hwanted, wanted] at hr
    split_ifs at hr
    · cases hr
    · exact Option.some.inj hr
  refine ⟨request', hrequest', heq, ?_⟩
  rw [(loads_load hload).wanted request' hrequest', wanted_of_isExternal (hstands ▸ hexternal),
    hstands]

end Task

end Graph

end DepBundle
