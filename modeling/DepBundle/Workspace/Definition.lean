import DepBundle.Package.Manifest
import DepBundle.Yaml.Parse
/-!
# Workspaces — where they are defined

A directory defines a workspace by a file of its own, or by a field of its
manifest; the file counts where there are both. Either way the definition
is a list of patterns for the directories of the members.
-/

namespace DepBundle.Workspace

/-- Why a workspace cannot be made out. -/
inductive Failure where
  /-- A file cannot be read. -/
  | unreadable
  /-- A manifest is malformed. -/
  | malformedManifest (path : Path)
  /-- The file that defines the workspace is malformed. -/
  | malformedDefinition (path : Path)
deriving DecidableEq, Repr

/-- The wording of why a workspace cannot be made out. -/
def Failure.message : Failure → String
  | unreadable => "io"
  | malformedManifest path => "Invalid manifest " ++ path.text
  | malformedDefinition path => "Invalid " ++ path.text

/-- The name of the file that defines a workspace. -/
def definitionFile : String := "pnpm-workspace.yaml"

/-- A list of texts. A value that is not written is the empty list. -/
def readTexts? : Yaml → Option (List String)
  | .scalar "" true => some []
  | .sequence items => items.mapM fun
    | .scalar text _ => some text
    | _ => none
  | _ => none

/-- The patterns in a definition: under their key, or alone in a sequence. -/
def patterns? : Yaml → Option (List String)
  | .scalar "" true | .sequence [] => some []
  | .sequence [patterns] => readTexts? patterns
  | .mapping members => do
    let keyed ← members.mapM fun (key, v) =>
      match key with
      | .scalar key _ => some (key, v)
      | _ => none
    match keyed.filter (·.1 == "packages") with
    | [] => some []
    | [(_, v)] => readTexts? v
    | _ => none
  | _ => none

/-- The manifest in a file that exists. -/
def readManifest (t : FileTree) (path : Path) : Except Failure Package.Manifest :=
  match t.readText? path with
  | none => .error .unreadable
  | some source =>
    match Package.Manifest.parse? path source with
    | some manifest => .ok manifest
    | none => .error (.malformedManifest path)

/-- The patterns of the workspace that a directory defines, if it defines
one. -/
def definedIn (t : FileTree) (directory : Path) : Except Failure (Option (List String)) :=
  let definition := directory / definitionFile
  let manifest := directory / "package.json"
  if t.isFile definition then
    match t.readText? definition with
    | none => .error .unreadable
    | some source =>
      match (Yaml.parse? source).bind patterns? with
      | some patterns => .ok (some patterns)
      | none => .error (.malformedDefinition definition)
  else if t.isFile manifest then (readManifest t manifest).map (·.workspaces)
  else .ok none

end DepBundle.Workspace
