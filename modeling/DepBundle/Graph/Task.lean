import DepBundle.Graph.Basic
import DepBundle.Graph.Resolved
import DepBundle.Module.Plain
/-!
# Graphs — loading one module

A task loads one module: it reads the source, finds what the module asks
for, and writes its body. What it makes of a module depends on the module
alone and on the files.
-/

namespace DepBundle.Graph

/-- The loading of a module. -/
structure Task where
  module : Resolved
  /-- The key of the module that first asked for it. -/
  owner : Option String := none
  /-- Whether it was asked for as an entry. -/
  isEntry : Bool := false

/-- What a task depends on. -/
structure Surroundings where
  files : FileTree
  settings : Compile.Settings

/-- A module as it is loaded, with what its requests stand for. -/
structure Loaded where
  /-- The module, its requests left out. -/
  module : Bundled
  /-- The requests, those without effect without a target. -/
  imports : List (Module.Record × Option Resolved) := []
  warnings : List Compile.Warning := []

namespace Task

variable (around : Surroundings)

/-- The key of a module in the generated registry. -/
def keyOf (id : String) : String :=
  Module.stableKey around.files.workingDirectory around.settings.cwd id

/-- The module as messages show it. -/
def shown (task : Task) : String :=
  let key := Module.shownKey (keyOf around task.module.id)
  match task.owner with
  | some owner => key ++ " (imported by " ++ owner ++ ")"
  | none => key

/-- The path of the module. -/
def path (task : Task) : Path := ⟨task.module.id⟩

/-- The module with a body and no exports but those given. -/
def bundled (task : Task) (type : Module.FileType) (kind : Module.ModuleKind)
    (localExports : OrderedSet String) (body : Body) : Bundled where
  id := task.module.id
  key := keyOf around task.module.id
  name := Text.legitimize task.path.representativeName
  type
  kind
  isEntry := task.isEntry
  body
  imports := []
  localExports
  hasSideEffects := task.module.hasSideEffects around.files.workingDirectory

/-- A module that exports its contents as a whole. -/
def whole (task : Task) (type : Module.FileType) (body : Body) : Loaded :=
  { module := task.bundled around type .assigned (.ofList ["default"]) body }

/-- What the requests of the module stand for. A bare specifier that stands
for nothing is left to the host, with a warning; any other is a failure. -/
def resolveAll (task : Task) (records : List Module.Record) :
    Except (List Compile.Failure) (List Resolved × List Compile.Warning) :=
  let shown := task.shown around
  let results := records.map fun record =>
    (record, Resolved.ofSpecifier around.files around.settings record.specifier
      (some task.module.id) record.kind false)
  let unresolved (bare : Bool) := results.filterMap fun (record, result) =>
    match result with
    | .error cause => if Package.isBare record.specifier = bare then some cause else none
    | .ok _ => none
  match unresolved false with
  | [] => .ok (results.map fun (record, result) =>
        result.toOption.getD (.external record.specifier),
      (unresolved true).map (⟨·, shown⟩))
  | causes => .error (causes.map (.dependency · shown))

/-- Whether a request has no effect: nothing is read from the target, and
loading it does nothing. -/
def isIdle (record : Module.Record) (target : Resolved) : Bool :=
  around.settings.treeshake && record.kind = .statement && record.isPlain
    && !target.isExternal && !target.hasSideEffects around.files.workingDirectory

/-- Where a request points in the output. -/
def destination : Option Resolved → Module.Destination
  | none => .dropped
  | some target =>
    if target.isExternal then .external target.id else .bundled (keyOf around target.id)

/-- The source of a script without types and markup, and the dialect that
it is in. -/
def plain (task : Task) (type : Module.FileType) (source : String) :
    Except (List Compile.Failure) (String × Syntax.Dialect) :=
  if type.needsTransform then
    if !around.settings.transforms task.path then
      .error [.notTranspiled (task.shown around)]
    else
      match Module.plainSource? task.path source with
      | some plain => .ok (plain, {})
      | none => .error [.malformed (task.shown around)]
  else .ok (source, type.dialect task.path)

/-- Loads a script. -/
def script (task : Task) (type : Module.FileType) (source : String) :
    Except (List Compile.Failure) Loaded := do
  let (source, dialect) ← task.plain around type source
  let some program := Syntax.Program.parse? dialect source
    | throw [.malformed (task.shown around)]
  let scan := Module.Scan.ofProgram source program around.settings.treeshake
  let (targets, warnings) ← task.resolveAll around scan.records
  let imports := (scan.records.zip targets).map fun (record, target) =>
    (record, if isIdle around record target then none else some target)
  let body := Module.body source scan (imports.map fun (_, target) => destination around target)
  return {
    module := task.bundled around type scan.kind scan.localExports (.script body)
    imports
    warnings }

/-- Loads the module. One served from memory is a script. -/
def load (task : Task) : Except (List Compile.Failure) Loaded :=
  match around.settings.virtualModules.get? task.module.id with
  | some source => task.script around .js source
  | none =>
    let type := Module.FileType.ofPath task.path
    let unreadable := Except.error [.unreadable (task.shown around)]
    match type with
    | .asset =>
      match around.files.readBytes? task.path with
      | some content => .ok (task.whole around type (.asset content))
      | none => unreadable
    | _ =>
      match around.files.readText? task.path with
      | none => unreadable
      | some source =>
        if type = .json then
          if (Json.parseSound? source).isSome then
            .ok (task.whole around type
              (.script ("module.exports = " ++ Text.trim source ++ ";\n")))
          else .error [.malformedJson (task.shown around)]
        else task.script around type source

end Task

end DepBundle.Graph
