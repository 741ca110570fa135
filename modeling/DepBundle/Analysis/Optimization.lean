import DepBundle.Analysis.Entry
import DepBundle.Package.Synthesis
/-!
# Analysis — compiling the dependencies

Every dependency that may be bundled is compiled into an artifact of its
own, through a module that stands in for it and asks for the bindings the
program reads. All of them are compiled at once, so that what they share is
compiled once.
-/

namespace DepBundle.Analysis

/-- The module that stands in for a dependency. -/
structure StandIn where
  /-- The name of its artifact, below the output directory. -/
  name : String
  source : String
deriving DecidableEq, Repr

/-- What compiling the dependencies gives. -/
structure Optimized where
  files : List Output.File := []
  /-- The dependency that each artifact was compiled for, by file name. -/
  dependencyOf : OrderedMap String String := .empty
  /-- What the chunks still import from the host. -/
  usedExternals : OrderedSet String := .empty

/-- Whether a dependency is bundled. -/
def Settings.optimizes (s : Settings) (dependency : String) : Bool :=
  dependency != toolBindings && !s.isIgnored dependency && !s.external.isExternal dependency

/-- The name of the artifact for a dependency. While a workspace is being
developed, its packages keep theirs. -/
def artifactName (s : Settings) (members : Workspace.Members) (current outputDir : Path)
    (dependency : String) (m : Package.Metadata) : String :=
  let flat := Package.flatten dependency
  let home := if s.dev && m.inWorkspace then
      members.get? ((Package.packageOf? dependency).getD dependency)
    else none
  match home with
  | some member => Path.relative current outputDir (member.location / ".trimpack" / "deps" / flat)
  | none => "deps/" ++ flat

/-- The stand-ins for the dependencies that are bundled. -/
def standIns (s : Settings) (members : Workspace.Members) (current outputDir : Path)
    (dependencies : Dependencies) : OrderedMap String StandIn :=
  (dependencies.filter s.optimizes).mapValues fun dependency m =>
    { name := artifactName s members current outputDir dependency m
      source := Package.synthesize dependency m.bindings }

/-- Roots of the packages whose sources may be TypeScript or JSX. -/
def transformRoots (s : Settings) (members : Workspace.Members) (dependencies : Dependencies) :
    List Path :=
  members.values.map (·.location) ++
    s.transpilePackages.filterMap fun package => (dependencies.get? package).bind (·.root)

/-- What compiling stand-ins asks for. -/
def optimizationRequest (s : Settings) (outputDir : Path) (roots : List Path)
    (standIns : List StandIn) : Compile.Request :=
  { input := some (standIns.map fun e => ⟨some e.name, Module.virtualId e.name⟩)
    cwd := some s.cwd
    platform := some s.platform
    virtualModules := some (.ofList (standIns.map fun e => (Module.virtualId e.name, e.source)))
    external := some (.packages (OrderedSet.ofList (s.external.all ++ s.ignored.toList)).toList)
    transformRoots := some roots
    treeshake := some true
    outputDir := some outputDir
    entryFileNames := some "[name].js"
    chunkFileNames := some "chunks/[name]-[hash].js"
    inlineDynamicImports := some false
    write := some true }

/-- The dependency that each artifact was compiled for. Of several with
one name the last counts. -/
def dependencyByFile (entries : OrderedMap String StandIn) (chunks : List Output.Chunk) :
    OrderedMap String String :=
  let byName := OrderedMap.ofList (entries.entries.map fun (dependency, e) => (e.name, dependency))
  .ofList <| (chunks.filter (·.isEntry)).filterMap fun c =>
    (byName.get? c.name).map fun dependency => (c.fileName, dependency)

/-- What chunks import that is no chunk. -/
def externalsOf (chunks : List Output.Chunk) : OrderedSet String :=
  let fileNames := chunks.map (·.fileName)
  .ofList <| (chunks.flatMap fun c => c.imports ++ c.dynamicImports).filter
    (!fileNames.contains ·)

/-- Compiles the dependencies that are bundled. Where there is none,
nothing is compiled. -/
def optimize {World : Type} (compiler : Compile.Compiler World) (around : Surroundings)
    (dependencies : Dependencies) (outputDir : Path) (w : World) :
    Except (List Failure) Optimized × World :=
  let s := around.settings
  let entries := standIns s around.members around.files.workingDirectory outputDir dependencies
  if entries.isEmpty then (.ok {}, w)
  else
    let roots := transformRoots s around.members dependencies
    match compiler.compile (optimizationRequest s outputDir roots entries.values) w with
    | (.error failures, w) => (.error (failures.map .compile), w)
    | (.ok outcome, w) =>
      let chunks := Output.chunks outcome.files
      (.ok ⟨outcome.files, dependencyByFile entries chunks, externalsOf chunks⟩, w)

end DepBundle.Analysis
