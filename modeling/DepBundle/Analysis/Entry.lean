import DepBundle.Analysis.Options
import DepBundle.Compile.Build
import DepBundle.Package.HostModule
import DepBundle.Package.Metadata
import DepBundle.Resolution.Resolver
import DepBundle.Workspace.Member
/-!
# Analysis — what an entry depends on

An entry is compiled into one chunk that leaves every bare specifier to
the host. What the chunk then imports are the dependencies, with the
bindings it reads from each. Several entries put together what they know.
-/

namespace DepBundle.Analysis

/-- Where a program begins. -/
inductive Entry where
  | file (path : Path)
  /-- Source that only exists in memory. -/
  | inline (id source : String)

/-- An entry as messages show it. -/
def Entry.shown : Entry → String
  | file path => path.text
  | inline id _ => id

/-- What is known about each dependency, in the order they were found. -/
abbrev Dependencies := OrderedMap String Package.Metadata

/-- Puts together what two places know of dependencies. -/
def Dependencies.merge (a b : Dependencies) : Dependencies :=
  b.entries.foldl (fun all (name, metadata) => all.modify name {} (·.merge metadata)) a

/-- Why an analysis fails. -/
inductive Failure where
  | compile (cause : Compile.Failure)
  /-- Compiling an entry gave no chunk for it. -/
  | noEntryChunk (entry : String)
deriving DecidableEq

/-- The wording of why an analysis fails. -/
def Failure.message : Failure → String
  | compile cause => cause.message
  | noEntryChunk entry => "Compiling " ++ entry ++ " produced no entry chunk"

/-- What an analysis goes by. -/
structure Surroundings where
  settings : Settings
  files : FileTree
  /-- The packages of the workspace that the program is part of. -/
  members : Workspace.Members

/-- What the analysis of an entry finds. -/
structure EntryAnalysis where
  dependencies : Dependencies
  /-- The entry compiled into one module. -/
  source : String

/-- Whether a specifier is one of a dependency. -/
def isCandidate (s : Settings) (specifier : String) : Bool :=
  Package.isBare specifier && !Package.isHostModule specifier && !s.isIgnored specifier

/-- Where the packages that an entry imports are looked for. -/
def Entry.lookupDirectory (s : Settings) : Entry → Path
  | file path => (s.cwd.join path).parent?.getD s.cwd
  | inline _ _ => s.cwd

/-- What compiling an entry asks for. -/
def Entry.request (s : Settings) (entry : Entry) : Compile.Request :=
  let (specifier, served) := match entry with
    | file path => ((s.cwd.join path).text, (.empty : OrderedMap String String))
    | inline id source =>
      let id := Module.virtualId id
      (id, OrderedMap.empty.insert id source)
  { input := some [⟨some "entry", specifier⟩]
    cwd := some s.cwd
    platform := some s.platform
    virtualModules := some served
    aliases := some s.runtimeAliases.entries
    external := some .bareSpecifiers
    treeshake := some true
    inlineDynamicImports := some true
    write := some false }

/-- The bindings a chunk asks of its dependencies. What is imported while
the program runs may have anything read from it. -/
def importedFrom (s : Settings) (c : Output.Chunk) : Dependencies :=
  let asked := c.importedBindings.entries.map fun (specifier, names) =>
    (specifier, Package.Bindings.ofList names)
  let loaded := c.dynamicImports.map fun specifier => (specifier, Package.Bindings.all)
  let candidates := (asked ++ loaded).filter fun (specifier, _) => isCandidate s specifier
  candidates.foldl (fun all (specifier, bindings) =>
    all.modify specifier {} (·.merge { bindings })) .empty

/-- What is known of a dependency from where it is installed. -/
def located (around : Surroundings) (start : Path) (name : String) (m : Package.Metadata) :
    Package.Metadata :=
  let package := (Package.packageOf? name).getD name
  let resolver : Resolution.Resolver := ⟨around.settings.platform, around.settings.cwd⟩
  { m with
    root := resolver.packageRoot? around.files package start
    inWorkspace := around.members.contains package }

/-- What an entry depends on, by the chunk it is compiled into. A package
that is only imported while the program runs is not looked for. -/
def dependenciesOf (around : Surroundings) (entry : Entry) (c : Output.Chunk) : Dependencies :=
  let start := entry.lookupDirectory around.settings
  (importedFrom around.settings c).mapValues fun name m =>
    if name ≠ toolBindings && c.importedBindings.contains name then located around start name m
    else m

variable {World : Type}

/-- Analyzes an entry. -/
def Entry.analyze (compiler : Compile.Compiler World) (around : Surroundings) (entry : Entry)
    (w : World) : Except (List Failure) EntryAnalysis × World :=
  match compiler.compile (entry.request around.settings) w with
  | (.error failures, w) => (.error (failures.map .compile), w)
  | (.ok outcome, w) =>
    match (Output.chunks outcome.files).find? (·.isStaticEntry) with
    | none => (.error [.noEntryChunk entry.shown], w)
    | some c => (.ok ⟨dependenciesOf around entry c, c.code⟩, w)

/-- Analyzes entries one after another, up to the first that fails: what
they and `known` depend on together. -/
def analyzeAll (compiler : Compile.Compiler World) (around : Surroundings) :
    (entries : List Entry) → (known : Dependencies) → World →
      Except (List Failure) Dependencies × World
  | [], known, w => (.ok known, w)
  | entry :: entries, known, w =>
    match entry.analyze compiler around w with
    | (.error failures, w) => (.error failures, w)
    | (.ok analysis, w) => analyzeAll compiler around entries (known.merge analysis.dependencies) w

/-- What is known after one more analysis. One that fails adds nothing. -/
def Dependencies.note (known : Dependencies) : Except (List Failure) EntryAnalysis → Dependencies
  | .error _ => known
  | .ok analysis => known.merge analysis.dependencies

/-- Analyzes entries one after another, whichever of them fail: what each
comes to, and what they and `known` depend on together. -/
def analyzeEach (compiler : Compile.Compiler World) (around : Surroundings) :
    (entries : List Entry) → (known : Dependencies) → World →
      List (Except (List Failure) EntryAnalysis) × Dependencies × World
  | [], known, w => ([], known, w)
  | entry :: entries, known, w =>
    let (answer, w) := entry.analyze compiler around w
    let (answers, known, w) := analyzeEach compiler around entries (known.note answer) w
    (answer :: answers, known, w)

end DepBundle.Analysis
