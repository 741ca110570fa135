import DepBundle.Graph.Task
/-!
# Graphs — loading a program

A program is loaded from its entries. Each module is loaded once, when it
is first asked for, and what it asks for is loaded after it. Tasks may be
finished in any order; they are carried out first come, first served.
-/

namespace DepBundle.Graph

/-- How far the loading of a program is. -/
structure Loading where
  /-- The modules come upon so far, in order; `none` while being loaded. -/
  slots : OrderedMap String (Option Vertex) := .empty
  /-- The tasks that are not finished, oldest first. -/
  tasks : List Task := []
  /-- How many finished tasks are still to be taken in. -/
  remaining : Nat := 0
  /-- What some `import()` leads to, where it is no entry. -/
  dynamicTargets : OrderedSet String := .empty
  failures : List Compile.Failure := []
  warnings : List Compile.Warning := []

namespace Loading

/-- Asks for a module. Only the first time is there anything to do. -/
def ask (l : Loading) (task : Task) : Loading :=
  let id := task.module.id
  if l.slots.contains id then l
  else if task.module.isExternal then { l with slots := l.slots.insert id (some .external) }
  else
    { l with
      slots := l.slots.insert id none
      tasks := l.tasks ++ [task]
      remaining := l.remaining + 1 }

/-- Asks for the entries, before anything is loaded. -/
def ofEntries (start : List Resolved) : Loading :=
  start.foldl (fun l module => l.ask { module, isEntry := true }) {}

/-- Asks for what a module asks for. -/
def follow (entries : List String) (owner : Bundled) (l : Loading)
    (request : Module.Record × Option Resolved) : Loading :=
  match request with
  | (_, none) => l
  | (record, some target) =>
    let l := l.ask { module := target, owner := some owner.key }
    if record.kind = .dynamicImport && !target.isExternal && !entries.contains target.id then
      { l with dynamicTargets := l.dynamicTargets.insert target.id }
    else l

/-- Takes in what a finished task made of its module. -/
def receive (entries : List String) (l : Loading) :
    Except (List Compile.Failure) Loaded → Loading
  | .error failures =>
    { l with failures := l.failures ++ failures, remaining := l.remaining - 1 }
  | .ok loaded =>
    let l := { l with warnings := l.warnings ++ loaded.warnings }
    let l := loaded.imports.foldl (follow entries loaded.module) l
    let module := { loaded.module with
      imports := loaded.imports.map fun (record, target) => ⟨record, target.map (·.id)⟩ }
    { l with
      slots := l.slots.insert module.id (some (.bundled module))
      remaining := l.remaining - 1 }

/-- Carries out tasks, first come, first served, at most `n` of them. -/
def run (load : Task → Except (List Compile.Failure) Loaded) (entries : List String) :
    Nat → Loading → Loading
  | 0, l => l
  | n + 1, l =>
    if l.remaining = 0 then l
    else
      match l.tasks with
      | [] => l
      | task :: tasks => run load entries n (receive entries { l with tasks } (load task))

/-- The modules that are loaded, if all of them are. -/
def vertices? (l : Loading) : Except (List Compile.Failure) (OrderedMap String Vertex) :=
  let step (vertices : OrderedMap String Vertex) (slot : String × Option Vertex) :=
    match slot with
    | (id, some vertex) => Except.ok (vertices.insert id vertex)
    | (id, none) => .error [.neverLoaded id]
  l.slots.entries.foldlM step .empty

/-- The key of a module as the graph has it. -/
def keyIn (vertices : OrderedMap String Vertex) (id : String) : String :=
  (((vertices.get? id).bind Vertex.bundled?).map (·.key)).getD id

/-- The graph that is loaded. What some `import()` leads to is an entry
too, after the others and in the order of the keys. -/
def graph (entries : List Entry) (l : Loading) : Except (List Compile.Failure) Graph := do
  if !l.failures.isEmpty then throw l.failures
  let vertices ← l.vertices?
  let targets := l.dynamicTargets.toList.mergeSort fun a b =>
    keyIn vertices a ≤ keyIn vertices b
  return ⟨vertices, entries ++ targets.map fun id => ⟨id, none, false⟩⟩

end Loading

/-- What the entries of the settings stand for, with their names. -/
def resolveEntries (around : Surroundings) :
    Except (List Compile.Failure) (List (Option String × Resolved)) :=
  let results := around.settings.input.map fun input =>
    match Resolved.ofSpecifier around.files around.settings input.specifier none .statement true with
    | .ok resolved =>
      if resolved.isExternal then .error (.externalEntry resolved.id)
      else .ok (input.name, resolved)
    | .error cause => .error (.entry cause)
  match results.filterMap fun | .error f => some f | .ok _ => none with
  | [] => .ok (results.filterMap Except.toOption)
  | failures => .error failures

/-- A number of tasks that loading a program cannot exceed: each file and
each module served from memory is loaded at most once under its path, and
once more for each alias, and asks for at most as many modules as it has
characters. -/
def taskLimit (around : Surroundings) : Nat :=
  let sizes := around.files.entries.values.map fun
    | .file content => content.size + 1
    | _ => 1
  let served := around.settings.virtualModules.values.map (·.utf8ByteSize + 1)
  (sizes.foldl (· + ·) 0 + served.foldl (· + ·) 0) * (around.settings.aliases.length + 1)
    + around.settings.input.length + 1

/-- Loads a program: its graph, and what was left to the host because it
stands for nothing. -/
def load (around : Surroundings) :
    Except (List Compile.Failure) (Graph × List Compile.Warning) := do
  if around.settings.input.isEmpty then throw [.noInput]
  let resolved ← resolveEntries around
  let entries := resolved.map fun (name, module) => (⟨module.id, name, true⟩ : Entry)
  let start := resolved.map (·.2)
  let l := Loading.run (Task.load around) (start.map (·.id)) (taskLimit around)
    (Loading.ofEntries start)
  return (← l.graph entries, l.warnings)

end DepBundle.Graph
