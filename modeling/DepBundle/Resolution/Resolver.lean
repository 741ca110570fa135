import DepBundle.Compile.Options
import DepBundle.Module.Record
import DepBundle.Resolution.Lookup
/-!
# Resolution — resolvers

What specifiers mean on a platform, and where packages are installed. An
entry may be named without the dot that a specifier needs.
-/

namespace DepBundle.Resolution

/-- What resolution depends on besides the files. -/
structure Resolver where
  platform : Compile.Platform
  /-- Where entries are looked for. -/
  cwd : Path
deriving DecidableEq, Repr

namespace Resolver

/-- What a search goes by for a module asked for in some way. -/
def rules (r : Resolver) (kind : Module.ImportKind) : Rules where
  conditions :=
    (if kind = .requireCall then "require" else "import") ::
      match r.platform with
      | .node => ["node"]
      | .browser => ["browser"]
      | .neutral => []
  mainFields :=
    match r.platform with
    | .node => ["main", "module"]
    | .browser => ["browser", "module", "main"]
    | .neutral => ["module", "main"]
  replaces := r.platform = .browser
  hasHost := r.platform = .node

/-- Where a specifier leads from the file that names it, or from where
entries are looked for. -/
def resolve (t : FileTree) (r : Resolver) (importer : Option Path) (specifier : String)
    (kind : Module.ImportKind) (isEntry : Bool) : Except Failure Path :=
  let base := ((importer.bind Path.parent?).filter (!·.components.isEmpty)).getD r.cwd
  let lead := resolveFrom t (r.rules kind) base
  match lead specifier with
  | .ok p => .ok p
  | .error e =>
    let first := specifier.toList.head?
    if isEntry && first != some '.' && first != some '/' then
      match lead (r.cwd.join ⟨specifier⟩).normalize.text with
      | .ok p => .ok p
      | .error _ => .error e
    else .error e

/-- The name in the manifest of a directory. -/
def manifestName? (t : FileTree) (directory : Path) : Option String := do
  let v ← Json.parseSound? (← t.readText? (directory / "package.json"))
  (← v.merged.member? "name").text?

/-- The directory above a file whose manifest has a name. -/
def namedDirectory? (t : FileTree) (name : String) (file : Path) : Option Path :=
  (file.ancestors.drop 1).find? fun directory => manifestName? t directory == some name

/-- The directory of a package that its name leads into. -/
def rootByName? (t : FileTree) (r : Resolver) (name : String) (from' : Path) : Option Path :=
  let lead (kind : Module.ImportKind) := (resolveFrom t (r.rules kind) from' name).toOption
  ((lead .statement).or (lead .requireCall)).bind (namedDirectory? t name)

/-- The directory that a package with a manifest is installed in. -/
def rootByPlace? (t : FileTree) (name : String) (from' : Path) : Option Path :=
  ((from'.ancestors.map fun directory => (directory / "node_modules") / name).find? fun package =>
    t.isFile (package / "package.json")).map fun package => (t.canonical? package).getD package

/-- The directory of a package as seen from another directory. -/
def packageRoot? (t : FileTree) (r : Resolver) (name : String) (from' : Path) : Option Path :=
  (rootByName? t r name from').or (rootByPlace? t name from')

end Resolver

/-- The package directories asked for so far. A directory once found, or
once missed, stays so while the files change. -/
structure RootMemo where
  known : List ((String × Path) × Option Path) := []

/-- The directory of a package, remembered for the next time. -/
def RootMemo.packageRoot? (m : RootMemo) (t : FileTree) (r : Resolver) (name : String)
    (from' : Path) : Option Path × RootMemo :=
  match m.known.lookup (name, from') with
  | some root => (root, m)
  | none =>
    let root := r.packageRoot? t name from'
    (root, ⟨((name, from'), root) :: m.known⟩)

end DepBundle.Resolution
