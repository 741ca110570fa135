import DepBundle.Package.HostModule
import DepBundle.Resolution.Opening
import DepBundle.Resolution.Request
/-!
# Resolution — looking things up

Where a specifier leads from a directory. A path leads to a file, to the
file with one of the known extensions, or to what the manifest of a
directory names as its main file, or its index. Anything else is looked
for in the package itself and then among the packages installed in the
directories above.
-/

namespace DepBundle.Resolution

/-- What a search goes by. -/
structure Rules where
  /-- The conditions that hold, `default` aside. -/
  conditions : List String
  /-- The fields of a manifest that may name its main file, in order. -/
  mainFields : List String
  /-- Whether manifests may replace modules by others, for browsers. -/
  replaces : Bool
  /-- Whether the host has modules of its own. -/
  hasHost : Bool

/-- The extensions a specifier may leave out, in order. -/
def extensions : List String :=
  [".js", ".mjs", ".cjs", ".jsx", ".ts", ".mts", ".cts", ".tsx", ".json"]

/-- The extensions that `.js` in a specifier may stand for, in order. -/
def scriptExtensions : List String := [".js", ".ts", ".tsx"]

/-- How often a specifier may lead on to another one. -/
def leadLimit : Nat := 32

/-- Where specifiers lead from directories. -/
abbrev Leads := Path → String → Search Path

namespace Lookup

variable (t : FileTree) (r : Rules) (leads : Leads)

/-- The replacement that a manifest has for a module: for a specifier as
written, or for a file. -/
def replacement? (d : Description) (p : Path) : (specifier : Option String) → Find String
  | some specifier => value ((d.content.member? "browser").bind (·.member? specifier))
  | none =>
    let members := ((d.content.member? "browser").map Json.members).getD []
    value ((members.find? fun (key, _) =>
      key.any fun key => (d.directory.walk ⟨key⟩).same p).map (·.2))
where
  value : Option Json → Find String
    | some (.string (some text)) => return text
    | some (.bool false) => stop (.leftOut p)
    | _ => failure

/-- The module that replaces a specifier or a file. A replacement that
replaces itself is the file as it is. -/
def replaced (d : Description) (p : Path) (specifier : Option String) : Find Path := do
  if !r.replaces then failure
  let text ← replacement? d p specifier
  if specifier = some text then failure
  let trail ← getThe Trail
  if trail.replacement = some text then
    let itself := (Text.dropPrefix? "./" text).any fun rest =>
      (Path.mk rest).components.isSuffixOf p.components
    if !itself then stop .endless
    else if t.isFile p then return p
    else stop (.notFound text)
  else
    set { trail with replacement := some text }
    leads d.realDirectory text

/-- The replacement of a file. -/
def replacedFile (p : Path) : Find Path := do
  if !r.replaces then failure
  replaced t r leads (← nearest? t p) p none

/-- The file a path leads to, or its replacement. -/
def file (p : Path) : Find Path :=
  replacedFile t r leads p <|> (if t.isFile p then return p else failure)

/-- The file a path leads to with one of the extensions added. -/
def extended (p : Path) : Find Path :=
  extensions.firstM fun extension => file t r leads ⟨p.text ++ extension⟩

/-- The file a path leads to with `.js` replaced by what it may stand for. -/
def script (p : Path) : Find Path :=
  match p.extension?, p.stem?, p.parent? with
  | some "js", some stem, some parent =>
    scriptExtensions.firstM fun extension =>
      file t r leads (parent / (stem ++ extension))
  | _, _, _ => failure

/-- The file that a path may mean. -/
def anyFile (p : Path) : Find Path :=
  script t r leads p <|> file t r leads p <|> extended t r leads p

/-- The index of a directory. -/
def index (p : Path) : Find Path :=
  replacedFile t r leads (p / "index") <|> extended t r leads (p / "index")

/-- The names of main files that a manifest gives, in order. -/
def mainFiles (d : Description) : List String :=
  r.mainFields.filterMap fun field => (d.content.member? field).bind Json.text?

/-- The main file that the manifest of a directory names. -/
def main (p : Path) : Find Path := do
  let d ← describe? t p
  (mainFiles r d).firstM fun name =>
    let name := if (Text.dropPrefix? "./" name).isSome || (Text.dropPrefix? "../" name).isSome
      then name else "./" ++ name
    let target := p.walk ⟨name⟩
    anyFile t r leads target <|> index t r leads target

/-- What stands for a directory. -/
def directory (p : Path) : Find Path := main t r leads p <|> index t r leads p

/-- What a path may mean. A specifier with a slash at its end means a
directory. -/
def fileOrDirectory (p : Path) (specifier : String) : Find Path :=
  (if specifier.toList.getLast? == some '/' then failure else anyFile t r leads p)
    <|> (if t.isDirectory p then directory t r leads p else failure)

/-- The directories of installed packages that a directory sees, nearest
first. -/
def installDirectories (from' : Path) : List Path :=
  (from'.ancestors.filter t.isDirectory).map (· / "node_modules") |>.filter t.isDirectory

/-- A target of a package with what it opens. -/
def opening (dir : Path) (isPrivate : Bool) (package : String → Find Path) : Opening :=
  ⟨dir, r.conditions, isPrivate, package⟩

/-- Where a subpath of a described package leads, if the package says what
it opens. -/
def exported (d : Description) (subpath : String) : Find Path :=
  match d.content.member? "exports" with
  | some exports => (opening r d.realDirectory false fun _ => failure).exported exports ("." ++ subpath)
  | none => failure

/-- What a target of a manifest means; it has to mean something. -/
def settled (specifier : String) (p : Path) : Find Path :=
  fileOrDirectory t r leads p "" <|> stop (.notFound specifier)

/-- Where a specifier leads that names the package it stands in. -/
def ownPackage (from' : Path) (specifier : String) : Find Path := do
  let d ← nearest? t from'
  let opened : Find Path := do
    let some name := (d.content.member? "name").bind Json.text? | failure
    let some rest := Text.dropPrefix? name specifier | failure
    if rest != "" && rest.toList.head? != some '/' then failure
    exported r d rest
  (do settled t r leads specifier (← opened)) <|> replaced t r leads d from' (some specifier)

/-- Where a specifier leads among the packages installed in one directory. -/
def installedIn (specifier : String) (packages : Path) : Find Path :=
  let (name, subpath) := nameAndSubpath specifier
  let package := packages.walk ⟨name⟩
  let isThere := name != "" && t.isDirectory package
  let opened : Find Path := do
    if !isThere then failure
    let d ← describe? t package
    settled t r leads specifier (← exported r { d with realDirectory := package } subpath)
  let plain : Find Path :=
    let p := packages.walk ⟨specifier⟩
    (if t.isDirectory p then replacedFile t r leads p <|> directory t r leads p else failure)
      <|> anyFile t r leads p <|> directory t r leads p
  let isScopeThere := name.toList.head? != some '@' || package.parent?.any t.isDirectory
  if name = "" || isThere then opened <|> plain
  else if subpath = "" && isScopeThere then plain
  else failure

/-- Where a specifier leads among the installed packages. -/
def installed (from' : Path) (specifier : String) : Find Path :=
  (installDirectories t from').firstM (installedIn t r leads specifier)

/-- Where a specifier leads that is looked for in the package it stands in
and then among the installed ones. -/
def package (from' : Path) (specifier : String) : Find Path :=
  ownPackage t r leads from' specifier <|> installed t r leads from' specifier
    <|> stop (.notFound specifier)

/-- Where a private import leads that stands for another package. -/
def imported (from' : Path) (specifier : String) : Find Path := do
  let (name, subpath) := nameAndSubpath specifier
  if r.hasHost && Package.isHostSpecifier name then stop (.hostModule name)
  let found := (from'.ancestors.map (· / "node_modules")).filter t.isDirectory
    |>.map (·.walk ⟨name⟩) |>.find? t.isDirectory
  match found with
  | none => stop (.notFound specifier)
  | some package =>
    (do exported r { (← describe? t package) with realDirectory := package } subpath)
      <|> OptionT.lift (leads package ("." ++ subpath))

/-- Where a private specifier leads. -/
def privately (from' : Path) (specifier : String) : Find Path :=
  (do
    let d ← nearest? t from'
    let some imports := d.content.member? "imports" | failure
    let o := opening r d.realDirectory true (imported t r leads d.realDirectory)
    settled t r leads specifier (← o.imported imports specifier))
  <|> package t r leads from' specifier

/-- Where the path of a specifier leads. -/
def path (from' : Path) (specifier : String) : Find Path :=
  match (Path.mk specifier).components.head? with
  | some .root => fileOrDirectory t r leads ⟨specifier⟩ specifier <|> stop (.notFound specifier)
  | some .current | some .parent =>
    fileOrDirectory t r leads (from'.walk ⟨specifier⟩) specifier <|> stop (.notFound specifier)
  | _ =>
    if specifier.toList.head? == some '#' then privately t r leads from' specifier
    else if r.hasHost && Package.isHostSpecifier specifier then stop (.hostModule specifier)
    else package t r leads from' specifier

/-- Where a specifier leads. What looks like a fragment may be part of the
path. -/
def specifier (from' : Path) (text : String) : Find Path := do
  let some request := Request.ofSpecifier? text | stop .emptyRequest
  let trail ← getThe Trail
  let trail := { trail with
    query := request.query.or trail.query, fragment := request.fragment.or trail.fragment }
  set trail
  let whole : Find Path :=
    match trail.query, trail.fragment with
    | none, some fragment => do
      set { trail with fragment := none }
      unlessStopped (path t r leads from' (request.path ++ fragment))
    | _, _ => failure
  whole <|> do
    modifyThe Trail fun now => { now with fragment := trail.fragment }
    path t r leads from' request.path

end Lookup

/-- Where specifiers lead, by leading on at most `n` times. -/
def leadsWithin (t : FileTree) (r : Rules) : Nat → Leads
  | 0, _, _ => throw .endless
  | n + 1, from', text => do
    match ← (Lookup.specifier t r (leadsWithin t r n) from' text).run with
    | some found => return found
    | none => throw (.notFound text)

/-- Where a specifier leads from a directory: the path of a file, links
followed, with the query and the fragment of the specifier. -/
def resolveFrom (t : FileTree) (r : Rules) (from' : Path) (text : String) :
    Except Failure Path :=
  let search : Search Path := do
    let found ← leadsWithin t r leadLimit from' text
    let _ ← (nearest? t found).run
    let trail ← get
    match t.canonical? found with
    | some p => return ⟨p.text ++ trail.query.getD "" ++ trail.fragment.getD ""⟩
    | none => throw (.notFound text)
  (search.run {}).1

end DepBundle.Resolution
