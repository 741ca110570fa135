import DepBundle.Data.OrderedMap
import DepBundle.Data.OrderedSet
import DepBundle.Output.Basic
import DepBundle.Package.Specifier
import DepBundle.Workspace.Member
/-!
# Analysis — validation

Every artifact is loaded before it is relied on. A dependency whose
artifact does not load is left to the host instead.
-/

namespace DepBundle.Analysis

/-- What validation finds. -/
structure Validation where
  /-- File names of the artifacts that do not load. -/
  invalidArtifacts : OrderedSet String := .empty
  /-- Where the artifacts of dependencies are. -/
  resolvedFiles : OrderedMap String Path := .empty
  /-- Dependencies left to the host after all. -/
  demoted : OrderedSet String := .empty
  /-- The packages of the workspace that the program is part of. -/
  members : Workspace.Members := .empty

namespace Validation

/-- Takes note of one artifact: whether it loads, where it is, and the
dependency it was compiled for. -/
def note (v : Validation) (fileName : String) (path : Path) (dependency : Option String)
    (loads : Bool) : Validation :=
  match loads, dependency with
  | true, some dependency => { v with resolvedFiles := v.resolvedFiles.insert dependency path }
  | true, none => v
  | false, some dependency =>
    { v with
      invalidArtifacts := v.invalidArtifacts.insert fileName
      demoted := v.demoted.insert (Package.identity dependency) }
  | false, none => { v with invalidArtifacts := v.invalidArtifacts.insert fileName }

end Validation

/-- Validates the artifacts of an output. -/
def validate (loads : Path → Bool) (members : Workspace.Members) (files : List Output.File)
    (dependencyOf : OrderedMap String String) (outputDir : Path) : Validation :=
  let artifacts := (Output.chunks files).filter (·.isStaticEntry)
  artifacts.foldl (fun v c =>
    let path := (outputDir.join ⟨c.fileName⟩).normalize
    v.note c.fileName path (dependencyOf.get? c.fileName) (loads path)) { members }

end DepBundle.Analysis
