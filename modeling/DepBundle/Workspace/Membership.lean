import DepBundle.Workspace.Discovery
/-!
# Workspaces — whether a package is a member

A workspace around a package only counts for it when the package is one of
its members.
-/

namespace DepBundle.Workspace

/-- What a package is part of. -/
structure Membership where
  /-- The members of its workspace; none where it is no member. -/
  members : Members := .empty
  root : Option Path := none
  isMember : Bool := false

/-- The directory of the package that a directory belongs to. -/
def packageRoot? (t : FileTree) (start : Path) : Option Path :=
  start.ancestors.find? fun directory => t.isFile (directory / "package.json")

/-- A path by which directories can be compared. -/
def comparable (t : FileTree) (path : Path) : Path := (t.canonical? path).getD path.normalize

/-- What the package that a directory belongs to is part of. -/
def membership (t : FileTree) (start : Path) : Except Failure Membership :=
  match packageRoot? t start with
  | none => .ok {}
  | some package => do
    let some workspace ← discover t start | return {}
    let package := comparable t package
    if workspace.members.values.any fun m => (comparable t m.location).same package then
      return { members := workspace.members, root := some workspace.root, isMember := true }
    else return {}

end DepBundle.Workspace
