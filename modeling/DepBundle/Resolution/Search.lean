import DepBundle.FileTree.Basic
import DepBundle.Json.Basic
/-!
# Resolution — searches

A search looks in one place after another for what a specifier asks for.
Finding nothing in one place leads on to the next; some finds stop the
search for good. What a search carries along is the query and the fragment
of its specifier, and the replacement it is in the middle of.
-/

namespace DepBundle.Resolution

/-- What stops a search. -/
inductive Failure where
  /-- The specifier asks for no path. -/
  | emptyRequest
  /-- Nothing is where the specifier leads. -/
  | notFound (specifier : String)
  /-- The specifier names a module of the host. -/
  | hostModule (specifier : String)
  /-- A manifest leaves the module out. -/
  | leftOut (path : Path)
  /-- A manifest on the way cannot be read. -/
  | brokenManifest (path : Path)
  /-- A manifest mixes subpaths and conditions. -/
  | mixedKeys (directory : Path)
  /-- A package does not open the subpath. -/
  | notOpened (subpath : String)
  /-- A package has no such private import. -/
  | notDeclared (specifier : String)
  /-- A manifest leads out of its package. -/
  | strayTarget (target : String)
  /-- The specifier leads on for too long. -/
  | endless
deriving DecidableEq, Repr

/-- What a search carries along. -/
structure Trail where
  query : Option String := none
  fragment : Option String := none
  /-- The specifier that stands for another one being replaced. -/
  replacement : Option String := none

/-- A search that ends with something. -/
abbrev Search := ExceptT Failure (StateM Trail)

/-- A search in one place, where there may be nothing. -/
abbrev Find := OptionT Search

/-- Stops a search for good. -/
def stop {α : Type} (f : Failure) : Find α := OptionT.lift (throw f)

/-- A search that may come to nothing, taken as one that found nothing here. -/
def unlessStopped {α : Type} (find : Find α) : Find α :=
  OptionT.mk fun trail =>
    match find.run.run trail with
    | (.ok found, trail) => (.ok found, trail)
    | (.error _, trail) => (.ok none, trail)

/-- The manifest of a directory as a search sees it. -/
structure Description where
  /-- The directory that the search went through. -/
  directory : Path
  /-- The same directory, links followed. -/
  realDirectory : Path
  content : Json

/-- The manifest of a directory, if it has one. -/
def describe? (t : FileTree) (directory : Path) : Find Description :=
  let file := directory / "package.json"
  match t.readText? file with
  | none => failure
  | some source =>
    match Json.parseSound? ((Text.dropPrefix? "\uFEFF" source).getD source) with
    | none => stop (.brokenManifest file)
    | some content =>
      return ⟨directory, (t.canonical? directory).getD directory, content.merged⟩

/-- The manifest of the package that a path lies in. -/
def nearest? (t : FileTree) (p : Path) : Find Description :=
  let above := p.ancestors.dropWhile (!t.isDirectory ·)
  above.firstM (describe? t)

end DepBundle.Resolution
