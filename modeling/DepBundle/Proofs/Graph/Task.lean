import DepBundle.Graph.Task
/-!
# Graphs — what a task makes of a module

What is found under an id decides what becomes of the module
(`Task.load_eq`), and what a script asks for is what its specifiers stand
for in it (`Task.wanted`). Who asked for a module first, and as what, is
said in messages and in two marks of the module, and nowhere else
(`Task.alike_load`). A source with types or markup is refused for these
outside of what may have them, and there alone (`load_of_not_transforms`,
`notTranspiled_not_mem_load`).
-/

namespace DepBundle.Graph

variable {around : Surroundings} {task task' : Task} {loaded loaded' : Loaded}
  {type : Module.FileType} {source : String} {records : List Module.Record}

/-- What of a loaded module says nothing of who asked for it first, and as
what. -/
def Loaded.outline (loaded : Loaded) : Bundled × List (Module.Record × Option Resolved) :=
  ({ loaded.module with isEntry := false, hasSideEffects := false }, loaded.imports)

/-- Two tasks have come to the same: both to the module, or both to
failures. -/
inductive Alike :
    Except (List Compile.Failure) Loaded → Except (List Compile.Failure) Loaded → Prop
  | loaded {loaded loaded' : Loaded} (h : loaded'.outline = loaded.outline) :
    Alike (.ok loaded) (.ok loaded')
  | failed {failures failures' : List Compile.Failure} (h : failures ≠ []) (h' : failures' ≠ []) :
    Alike (.error failures) (.error failures')

namespace Task

/-! ## What a module asks for -/

/-- What a specifier stands for in a module. One that stands for nothing is
left to the host. -/
def standsFor (around : Surroundings) (importer : String) (record : Module.Record) : Resolved :=
  (Resolved.ofSpecifier around.files around.settings record.specifier (some importer) record.kind
    false).toOption.getD (.external record.specifier)

/-- What a request of a module asks for, if it has an effect. -/
def wanted (around : Surroundings) (importer : String) (record : Module.Record) :
    Option Resolved :=
  if isIdle around record (standsFor around importer record) then none
  else some (standsFor around importer record)

/-- A task that has come to a module has loaded the one it was given. -/
structure Loads (around : Surroundings) (task : Task) (loaded : Loaded) : Prop where
  id : loaded.module.id = task.module.id
  isEntry : loaded.module.isEntry = task.isEntry
  wanted : ∀ request ∈ loaded.imports, request.2 = wanted around task.module.id request.1

/-- The requests of a module stand for something each, or not, whoever asked
for it. -/
theorem resolveAll_cases (around : Surroundings) (hid : task'.module.id = task.module.id)
    (records : List Module.Record) :
    (∃ warnings warnings',
        task.resolveAll around records =
          .ok (records.map (standsFor around task.module.id), warnings) ∧
        task'.resolveAll around records =
          .ok (records.map (standsFor around task.module.id), warnings')) ∨
      ∃ failures failures', failures ≠ [] ∧ failures' ≠ [] ∧
        task.resolveAll around records = .error failures ∧
        task'.resolveAll around records = .error failures' := by
  simp only [resolveAll, hid]
  split
  · left
    simp only [List.map_map]
    exact ⟨_, _, rfl, rfl⟩
  · rename_i causes hcauses
    right
    refine ⟨_, _, ?_, ?_, rfl, rfl⟩
    all_goals
      intro hnil
      exact hcauses (List.map_eq_nil_iff.1 hnil)

/-! ## What is found under an id -/

/-- What there is to be loaded. -/
inductive Found where
  | script (type : Module.FileType) (source : String)
  | whole (type : Module.FileType) (body : Body)
  | unreadable
  | malformedJson

/-- What is found under an id: what is served from memory, or a file. -/
def found (around : Surroundings) (id : String) : Found :=
  match around.settings.virtualModules.get? id with
  | some source => .script .js source
  | none =>
    let type := Module.FileType.ofPath ⟨id⟩
    match type with
    | .asset =>
      match around.files.readBytes? ⟨id⟩ with
      | some content => .whole type (.asset content)
      | none => .unreadable
    | _ =>
      match around.files.readText? ⟨id⟩ with
      | none => .unreadable
      | some source =>
        if type = .json then
          if (Json.parseSound? source).isSome then
            .whole type (.script ("module.exports = " ++ Text.trim source ++ ";\n"))
          else .malformedJson
        else .script type source

/-- **What is found decides what becomes of the module.** -/
theorem load_eq (around : Surroundings) (task : Task) : load around task =
    match found around task.module.id with
    | .script type source => task.script around type source
    | .whole type body => .ok (task.whole around type body)
    | .unreadable => .error [.unreadable (task.shown around)]
    | .malformedJson => .error [.malformedJson (task.shown around)] := by
  rw [load, found, path]
  generalize around.settings.virtualModules.get? task.module.id = served
  generalize Module.FileType.ofPath ⟨task.module.id⟩ = type
  generalize around.files.readBytes? ⟨task.module.id⟩ = bytes
  generalize around.files.readText? ⟨task.module.id⟩ = text
  cases served with
  | some source => rfl
  | none =>
    cases type with
    | asset => cases bytes <;> rfl
    | json =>
      cases text with
      | none => rfl
      | some source =>
        simp only [if_true]
        split <;> rfl
    | _ => cases text <;> rfl

/-- The scan of a script. -/
def scan? (around : Surroundings) (source : String) (dialect : Syntax.Dialect) :
    Option Module.Scan :=
  (Syntax.Program.parse? dialect source).map fun program =>
    Module.Scan.ofProgram source program around.settings.treeshake

/-- What a script comes to once it is known what its requests stand for. -/
def scanned (around : Surroundings) (task : Task) (type : Module.FileType) (source : String)
    (scan : Module.Scan) (targets : List Resolved) (warnings : List Compile.Warning) : Loaded :=
  let imports := (scan.records.zip targets).map fun (record, target) =>
    (record, if isIdle around record target then none else some target)
  let body := Module.body source scan (imports.map fun (_, target) => destination around target)
  { module := task.bundled around type scan.kind scan.localExports (.script body)
    imports
    warnings }

/-- **The steps of loading a script.** -/
theorem script_eq (around : Surroundings) (task : Task) (type : Module.FileType)
    (source : String) : task.script around type source =
      match task.plain around type source with
      | .error failures => .error failures
      | .ok (plain, dialect) =>
        match scan? around plain dialect with
        | none => .error [.malformed (task.shown around)]
        | some scan =>
          match task.resolveAll around scan.records with
          | .error failures => .error failures
          | .ok (targets, warnings) =>
            .ok (task.scanned around type plain scan targets warnings) := by
  rw [script]
  cases task.plain around type source with
  | error => rfl
  | ok p =>
    simp only [bind, Except.bind, scan?]
    cases Syntax.Program.parse? p.2 p.1 with
    | none => rfl
    | some program =>
      simp only [Option.map_some]
      cases task.resolveAll around _ <;> rfl

/-! ## What a task comes to -/

theorem loads_scanned {scan : Module.Scan} {warnings : List Compile.Warning} :
    Loads around task (task.scanned around type source scan
      (scan.records.map (standsFor around task.module.id)) warnings) := by
  refine ⟨rfl, rfl, fun request hrequest => ?_⟩
  obtain ⟨⟨record, target⟩, hmem, rfl⟩ := List.mem_map.1 hrequest
  rw [← List.map_prod_left_eq_zip, List.mem_map] at hmem
  obtain ⟨record', -, heq⟩ := hmem
  obtain ⟨rfl, rfl⟩ := Prod.mk.inj heq
  rfl

/-- **What a module that is loaded has gone through:** a script is read and
scanned, and each of its requests stands for something; anything else is taken
as a whole. -/
theorem load_cases (h : load around task = .ok loaded) :
    (∃ type source p scan warnings, found around task.module.id = .script type source ∧
      task.plain around type source = .ok p ∧ scan? around p.1 p.2 = some scan ∧
      loaded = task.scanned around type p.1 scan
        (scan.records.map (standsFor around task.module.id)) warnings) ∨
    ∃ type body, found around task.module.id = .whole type body ∧
      loaded = task.whole around type body := by
  rw [load_eq] at h
  cases hfound : found around task.module.id with
  | script type source =>
    simp only [hfound, script_eq] at h
    cases hplain : task.plain around type source with
    | error => simp [hplain] at h
    | ok p =>
      simp only [hplain] at h
      cases hscan : scan? around p.1 p.2 with
      | none => simp [hscan] at h
      | some scan =>
        simp only [hscan] at h
        rcases resolveAll_cases around (Eq.refl task.module.id) scan.records with
          ⟨warnings, -, hresolve, -⟩ | ⟨failures, -, -, -, hresolve, -⟩
        · rw [hresolve] at h
          exact .inl ⟨type, source, p, scan, warnings, rfl, hplain, hscan, (Except.ok.inj h).symm⟩
        · rw [hresolve] at h
          cases h
  | whole type body =>
    rw [hfound] at h
    exact .inr ⟨type, body, rfl, (Except.ok.inj h).symm⟩
  | unreadable => simp [hfound] at h
  | malformedJson => simp [hfound] at h

theorem alike_plain (around : Surroundings) (type : Module.FileType) (source : String)
    (hid : task'.module.id = task.module.id) :
    (∃ p, task.plain around type source = .ok p ∧ task'.plain around type source = .ok p) ∨
      ∃ failures failures', failures ≠ [] ∧ failures' ≠ [] ∧
        task.plain around type source = .error failures ∧
        task'.plain around type source = .error failures' := by
  have hpath : task'.path = task.path := congrArg Path.mk hid
  simp only [plain, hpath]
  split
  · split
    · exact Or.inr ⟨_, _, List.cons_ne_nil _ _, List.cons_ne_nil _ _, rfl, rfl⟩
    · split
      · exact Or.inl ⟨_, rfl, rfl⟩
      · exact Or.inr ⟨_, _, List.cons_ne_nil _ _, List.cons_ne_nil _ _, rfl, rfl⟩
  · exact Or.inl ⟨_, rfl, rfl⟩

theorem outline_bundled (hid : task'.module.id = task.module.id) {kind : Module.ModuleKind}
    {localExports : OrderedSet String} {body : Body} :
    { task'.bundled around type kind localExports body with
        isEntry := false, hasSideEffects := false } =
      { task.bundled around type kind localExports body with
        isEntry := false, hasSideEffects := false } := by
  simp only [bundled, path, hid]

theorem alike_script (hid : task'.module.id = task.module.id) :
    Alike (task.script around type source) (task'.script around type source) := by
  rw [script_eq, script_eq]
  rcases alike_plain around type source hid with
    ⟨⟨plain, dialect⟩, hplain, hplain'⟩ | ⟨failures, failures', hne, hne', hplain, hplain'⟩
  · rw [hplain, hplain']
    simp only
    cases scan? around plain dialect with
    | none => exact .failed (List.cons_ne_nil _ _) (List.cons_ne_nil _ _)
    | some scan =>
      rcases resolveAll_cases around hid scan.records with
        ⟨warnings, warnings', hresolve, hresolve'⟩ |
          ⟨failures, failures', hne, hne', hresolve, hresolve'⟩
      · simp only [hresolve, hresolve']
        refine .loaded ?_
        rw [Loaded.outline, Loaded.outline]
        exact Prod.ext (outline_bundled hid) rfl
      · simp only [hresolve, hresolve']
        exact .failed hne hne'
  · rw [hplain, hplain']
    exact .failed hne hne'

/-- **Who asks for a module does not matter for what becomes of it.** -/
theorem alike_load (around : Surroundings) (hid : task'.module.id = task.module.id) :
    Alike (load around task) (load around task') := by
  rw [load_eq, load_eq, hid]
  cases found around task.module.id with
  | script type source => exact alike_script hid
  | whole type body => exact .loaded (Prod.ext (outline_bundled hid) rfl)
  | unreadable => exact .failed (List.cons_ne_nil _ _) (List.cons_ne_nil _ _)
  | malformedJson => exact .failed (List.cons_ne_nil _ _) (List.cons_ne_nil _ _)

theorem exists_ok_of_load (task' : Task) (hload : load around task = .ok loaded)
    (hid : task'.module.id = task.module.id) :
    ∃ loaded', load around task' = .ok loaded' ∧ loaded'.outline = loaded.outline := by
  have halike := alike_load around hid
  rw [hload] at halike
  generalize load around task' = result at halike ⊢
  cases halike with
  | loaded h => exact ⟨_, rfl, h⟩

/-- **A task that comes to a module has loaded the one it was given.** -/
theorem loads_load (h : load around task = .ok loaded) : Loads around task loaded := by
  rcases load_cases h with ⟨type, source, p, scan, warnings, -, -, -, rfl⟩ | ⟨type, body, -, rfl⟩
  · exact loads_scanned
  · exact ⟨rfl, rfl, by simp [whole]⟩

/-- A task that comes to failures names some. -/
theorem ne_nil_of_load {failures : List Compile.Failure} (h : load around task = .error failures) :
    failures ≠ [] := by
  have hself := alike_load around (Eq.refl task.module.id)
  rw [h] at hself
  cases hself with
  | failed hne => exact hne

/-! ## Sources with types or markup -/

/-- Outside of what may have them, a source with types or markup is refused. -/
theorem load_of_not_transforms (hfound : found around task.module.id = .script type source)
    (htyped : type.needsTransform) (h : around.settings.transforms task.path = false) :
    load around task = .error [.notTranspiled (task.shown around)] := by
  have hplain : task.plain around type source = .error [.notTranspiled (task.shown around)] := by
    rw [plain, if_pos htyped, h]
    rfl
  rw [load_eq, hfound]
  simp only [script_eq, hplain]

section

variable {failures : List Compile.Failure} {module : String}

/-- Inside, what a source can fail at is being read as one. -/
theorem eq_malformed_of_plain (h : around.settings.transforms task.path)
    (hplain : task.plain around type source = .error failures) :
    failures = [.malformed (task.shown around)] := by
  rw [plain, h] at hplain
  simp only [Bool.not_true, Bool.false_eq_true, if_false] at hplain
  split at hplain
  · split at hplain
    · cases hplain
    · exact (Except.error.inj hplain).symm
  · cases hplain

theorem notTranspiled_not_mem_resolveAll (h : task.resolveAll around records = .error failures) :
    .notTranspiled module ∉ failures := by
  simp only [resolveAll] at h
  split at h
  · cases h
  · obtain rfl := Except.error.inj h
    simp

theorem notTranspiled_not_mem_script (h : around.settings.transforms task.path)
    (hscript : task.script around type source = .error failures) :
    .notTranspiled module ∉ failures := by
  rw [script_eq] at hscript
  cases hplain : task.plain around type source with
  | error causes =>
    simp only [hplain] at hscript
    obtain rfl := Except.error.inj hscript
    simp [eq_malformed_of_plain h hplain]
  | ok p =>
    simp only [hplain] at hscript
    cases hscan : scan? around p.1 p.2 with
    | none =>
      simp only [hscan] at hscript
      obtain rfl := Except.error.inj hscript
      simp
    | some scan =>
      simp only [hscan] at hscript
      cases hresolve : task.resolveAll around scan.records with
      | ok targets => simp [hresolve] at hscript
      | error causes =>
        simp only [hresolve] at hscript
        obtain rfl := Except.error.inj hscript
        exact notTranspiled_not_mem_resolveAll hresolve

/-- **Inside, no source is refused for its types or its markup.** -/
theorem notTranspiled_not_mem_load (h : around.settings.transforms task.path)
    (hload : load around task = .error failures) : .notTranspiled module ∉ failures := by
  rw [load_eq] at hload
  cases hfound : found around task.module.id with
  | script type source =>
    rw [hfound] at hload
    exact notTranspiled_not_mem_script h hload
  | whole type body => simp [hfound] at hload
  | unreadable =>
    rw [hfound] at hload
    obtain rfl := Except.error.inj hload
    simp
  | malformedJson =>
    rw [hfound] at hload
    obtain rfl := Except.error.inj hload
    simp

end

end Task

end DepBundle.Graph
