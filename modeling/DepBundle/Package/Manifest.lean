import DepBundle.FileTree.Basic
import DepBundle.Glob.Match
import DepBundle.Json.Decode
/-!
# Packages — manifests

The parts of a `package.json` that matter here: a package's name and
version, the workspace it roots, the dependencies it declares, and which
of its modules do something merely by being loaded. A file belongs to the
package whose manifest lies nearest above it; a manifest that cannot be
read is passed over.
-/

namespace DepBundle.Package

/-- Which modules of a package do something merely by being loaded. -/
inductive SideEffects where
  /-- All of them, or none. -/
  | flag (value : Bool)
  /-- Those that match a glob. -/
  | glob (pattern : String)
  /-- Those that match one of several globs. -/
  | globs (patterns : List String)
deriving DecidableEq, Repr

/-- A manifest. -/
structure Manifest where
  /-- Where it was read from. -/
  path : Path
  name : Option String
  version : Option String
  /-- The patterns of the workspace it roots. -/
  workspaces : Option (List String)
  sideEffects : Option SideEffects
  dependencies : OrderedMap String String
  devDependencies : OrderedMap String String
  peerDependencies : OrderedMap String String
  optionalDependencies : OrderedMap String String

namespace Manifest

/-- Workspace patterns: a list, or an object with such a list. -/
def readWorkspaces : Json.Reader (List String)
  | .array items => Json.readList Json.readString (.array items)
  | v => do
    guard (v.isSound && v.depth < Json.depthLimit && !v.isArray)
    match ← Json.readFields ["packages"] false v with
    | [packages] => Json.field (Json.readList Json.readString) (some []) packages
    | _ => none

/-- A flag, a glob or a list of globs. -/
def readSideEffects : Json.Reader SideEffects
  | .bool value => some (.flag value)
  | .string spelling => spelling.map .glob
  | v => (Json.readList Json.readString v).map .globs

/-- The fields of a manifest, in the order an array lists them. -/
def fields : List String :=
  ["name", "version", "workspaces", "sideEffects", "dependencies", "devDependencies",
   "peerDependencies", "optionalDependencies"]

/-- The manifest a text writes; `none` for a text that writes none. As an
array, it has its first four fields at least. -/
def parse? (path : Path) (source : String) : Option Manifest := do
  let v ← Json.parse? source
  let values ← Json.readFields fields false v
  let missing {α : Type} : Option (Option α) := if v.isArray then none else some none
  let map := Json.field (Json.readMap Json.readString) (some .empty)
  match values with
  | [name, version, workspaces, sideEffects, deps, dev, peer, optional] =>
    return {
      path
      name := ← Json.field (Json.readOptional Json.readString) missing name
      version := ← Json.field (Json.readOptional Json.readString) missing version
      workspaces := ← Json.field (Json.readOptional readWorkspaces) missing workspaces
      sideEffects := ← Json.field (Json.readOptional readSideEffects) missing sideEffects
      dependencies := ← map deps
      devDependencies := ← map dev
      peerDependencies := ← map peer
      optionalDependencies := ← map optional }
  | _ => none

/-- The directory of the package. -/
def directory (m : Manifest) : Path := m.path.directory

/-- Every dependency once, of whatever kind, with the range of its first
declaration; `none` where none is declared. -/
def allDependencies? (m : Manifest) : Option (OrderedMap String String) :=
  let entries := m.dependencies.entries ++ m.devDependencies.entries
    ++ m.peerDependencies.entries ++ m.optionalDependencies.entries
  let all := entries.foldl (fun all (name, range) => all.insertNew name range) .empty
  if all.isEmpty then none else some all

/-- Whether a glob of the side-effects field describes a path seen from
the package. A glob without a separator is about file names anywhere. -/
def describesModule (glob path : String) : Bool :=
  let glob := (Text.dropPrefix? "./" glob).getD glob
  if glob.toList.contains '/' then Glob.describes glob path
  else Glob.describes ("**/" ++ glob) path

/-- Whether loading the module at `path` may do something. Where the
manifest does not say, it may. -/
def hasSideEffects (cwd : Path) (m : Manifest) (path : Path) : Bool :=
  match m.sideEffects with
  | none => true
  | some (.flag value) => value
  | some (.glob pattern) => describesModule pattern (Path.relative cwd m.directory path)
  | some (.globs patterns) =>
    patterns.any (describesModule · (Path.relative cwd m.directory path))

/-- The manifest in a directory. -/
def inDirectory? (t : FileTree) (directory : Path) : Option Manifest := do
  let path := directory / "package.json"
  parse? path (← t.readText? path)

/-- The nearest manifest above a file. -/
def nearest? (t : FileTree) (file : Path) : Option Manifest :=
  (file.ancestors.drop 1).findSome? (inDirectory? t)

end Manifest

end DepBundle.Package
