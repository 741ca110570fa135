import DepBundle.FileTree.Basic
import DepBundle.Analysis.Options
import DepBundle.Module.Source
import DepBundle.Package.HostModule
import DepBundle.Resolution.Resolver
import DepBundle.Text.Shown
/-!
# Analysis — whether an artifact loads

An artifact loads when every file it leads to by relative imports is there
and can be parsed, and when everything else those files import is served by
the host or installed. Nothing is run. A file that was come to is not
looked at again, so imports may form cycles.
-/

namespace DepBundle.Analysis

/-- Why an artifact does not load. -/
inductive LoadFailure where
  /-- A file cannot be read. -/
  | missing (path : Path)
  /-- A file cannot be parsed. -/
  | malformed (path : Path)
  /-- A file imports one that is not there. -/
  | missingFile (importer : Path) (specifier : String)
  /-- A file imports from a package that is not installed. -/
  | missingPackage (importer : Path) (specifier : String)
deriving DecidableEq

/-- The wording of why an artifact does not load. -/
def LoadFailure.message : LoadFailure → String
  | missing path => "Cannot find " ++ path.text
  | malformed path => "Failed to parse " ++ path.text
  | missingFile importer specifier =>
    importer.text ++ " imports missing file " ++ Text.shown specifier
  | missingPackage importer specifier =>
    "Failed to load " ++ importer.text ++ ": Cannot find package " ++ Text.shown specifier

/-- A way to find out whether files load. -/
structure Loader where
  files : FileTree
  resolver : Resolution.Resolver
  /-- Specifiers that the runtime serves. -/
  provided : OrderedSet String

namespace Loader

/-- The loader for the program that settings are for. -/
def ofSettings (s : Settings) (files : FileTree) : Loader :=
  ⟨files, ⟨s.platform, s.cwd⟩, s.ignored⟩

/-- What the statements of a file import from. -/
def imports (l : Loader) (path : Path) : Except LoadFailure (List String) := do
  let some source := l.files.readText? path | throw (.missing path)
  let some program := Syntax.Program.parse? (Module.dialectOf path) source
    | throw (.malformed path)
  return Module.staticImports program

/-- Whether a specifier is the way to a file from another. -/
def isRelative (specifier : String) : Bool :=
  (Text.dropPrefix? "./" specifier).isSome || (Text.dropPrefix? "../" specifier).isSome

/-- Whether the host or the runtime serves a specifier. -/
def isProvided (l : Loader) (specifier : String) : Bool :=
  Package.isHostModule specifier || l.provided.contains specifier

/-- Loads what a file imports, in order and up to the first that does not
load. Imported files are loaded the way `descend` gives; `visited` are the
files come to so far. -/
def loadImports (l : Loader) (descend : Path → List Path → Except LoadFailure (List Path))
    (importer : Path) : List String → List Path → Except LoadFailure (List Path)
  | [], visited => .ok visited
  | specifier :: rest, visited =>
    if isRelative specifier then
      let target := (importer.directory.join ⟨specifier⟩).normalize
      if l.files.isFile target then do
        loadImports l descend importer rest (← descend target visited)
      else .error (.missingFile importer specifier)
    else if l.isProvided specifier
        || (l.resolver.resolve l.files (some importer) specifier .statement false).isOk then
      loadImports l descend importer rest visited
    else .error (.missingPackage importer specifier)

/-- Loads a file and what it leads to, over chains of at most `n` files. -/
def loadChain (l : Loader) : (n : Nat) → Path → List Path → Except LoadFailure (List Path)
  | 0, _, visited => .ok visited
  | n + 1, path, visited =>
    if visited.any path.same then .ok visited
    else do loadImports l (l.loadChain n) path (← l.imports path) (path :: visited)

/-- A number of files that no chain exceeds: there are no more paths. -/
def chainLimit : Nat := Nat.pow 2 (8 * FileTree.pathLimit)

/-- Loads a file and everything it leads to. -/
def load (l : Loader) (path : Path) : Except LoadFailure Unit :=
  (l.loadChain chainLimit path []).map fun _ => ()

end Loader

end DepBundle.Analysis
