import DepBundle.Data.OrderedMap
import DepBundle.Data.OrderedSet
import DepBundle.Module.Body
import DepBundle.Module.Id
/-!
# Graphs — modules and what they ask for

A graph holds the modules of a program by their ids, in the order they
were come upon. Modules left to the host are in it and ask for nothing.
Where a request has no effect, it has no target.
-/

namespace DepBundle

namespace Graph

/-- A request of a module, and the id of what it asks for. -/
structure Import where
  record : Module.Record
  /-- `none` where the request has no effect. -/
  target : Option String

/-- What a module becomes in the output. -/
inductive Body where
  /-- The body of a function. -/
  | script (code : String)
  /-- A file that is passed on as it is. -/
  | asset (content : ByteArray)

/-- A module that is part of the output. -/
structure Bundled where
  id : String
  /-- Its key in the generated registry. -/
  key : String
  /-- A readable name, after its file. -/
  name : String
  type : Module.FileType
  kind : Module.ModuleKind
  /-- Whether it was asked for as an entry. -/
  isEntry : Bool
  body : Body
  imports : List Import
  /-- The names that the module itself exports. -/
  localExports : OrderedSet String
  hasSideEffects : Bool

/-- A module of the program. -/
inductive Vertex where
  | bundled (m : Bundled)
  /-- Left to the host. -/
  | external

/-- The module itself where it is part of the output. -/
def Vertex.bundled? : Vertex → Option Bundled
  | bundled m => some m
  | external => none

/-- A module that the program can be entered at. -/
structure Entry where
  id : String
  /-- The name given to it, if any. -/
  name : Option String
  /-- Whether it was asked for as an entry, rather than by some `import()`. -/
  isUserDefined : Bool

end Graph

/-- The modules of a program and where it can be entered. -/
structure Graph where
  vertices : OrderedMap String Graph.Vertex
  entries : List Graph.Entry

namespace Graph

/-- The module with an id, where it is part of the output. -/
def bundled? (g : Graph) (id : String) : Option Bundled := (g.vertices.get? id).bind Vertex.bundled?

/-- The modules that are part of the output. -/
def modules (g : Graph) : List Bundled := g.vertices.values.filterMap Vertex.bundled?

/-- Whether an id is that of a module left to the host. -/
def isExternal (g : Graph) (id : String) : Bool :=
  match g.vertices.get? id with
  | some .external => true
  | _ => false

/-- The key of a module: its specifier where it is left to the host. -/
def keyOf (g : Graph) (id : String) : String := ((g.bundled? id).map (·.key)).getD id

/-- What a module asks for, with effect. -/
def requests (g : Graph) (id : String) : List (Module.Record × String) :=
  match g.bundled? id with
  | some m => m.imports.filterMap fun i => i.target.map fun target => (i.record, target)
  | none => []

/-- What has to be there before a module runs, in order. -/
def staticTargets (g : Graph) (id : String) : List String :=
  ((g.requests id).filter fun (record, _) => record.kind.isStatic).map (·.2)

/-- What has to be registered wherever a module is, each once. -/
def dependencies (g : Graph) (id : String) : OrderedSet String := .ofList (g.staticTargets id)

/-- The parts of the output that a module may load later. -/
def dynamicDependencies (g : Graph) (id : String) : OrderedSet String :=
  .ofList (((g.requests id).filter fun (record, target) =>
    !record.kind.isStatic && !g.isExternal target).map (·.2))

/-- The names that a module reads at once from those left to the host. -/
def externalBindings (g : Graph) (id : String) : OrderedMap String (OrderedSet String) :=
  (g.requests id).foldl (fun bindings (record, target) =>
    if record.kind.isStatic && g.isExternal target then
      bindings.modify target .empty fun names => names.insertMany record.form.usedNames
    else bindings) .empty

/-- Whether some `import()` leads to a module. -/
def isDynamicTarget (g : Graph) (id : String) : Bool :=
  g.vertices.keys.any fun importer => (g.dynamicDependencies importer).contains id

/-- What a module passes on all exports of. -/
def starTargets (g : Graph) (id : String) : List String :=
  ((g.requests id).filter fun (record, _) => record.form = .star || record.isWholesale).map (·.2)

end Graph

end DepBundle
