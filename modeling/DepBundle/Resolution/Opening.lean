import DepBundle.Package.Specifier
import DepBundle.Resolution.Search
/-!
# Resolution — what packages open

A manifest may say which subpaths of its package can be imported and where
they lead, by conditions: the first condition that holds decides. A subpath
with a `*` opens every subpath that fits it, and the most specific one
counts.
-/

namespace DepBundle.Resolution

/-- The name of a package and the rest of a specifier. -/
def nameAndSubpath (specifier : String) : String × String :=
  let cs := specifier.toList
  let name := Package.packagePart cs
  (String.ofList name, String.ofList (cs.drop name.length))

/-- Whether `key` counts before `other`: its part before the `*` is longer,
or only the other one lacks a `*`, or it is longer as a whole. -/
def isMoreSpecific (key other : String) : Bool :=
  let base (k : String) : Nat :=
    match Text.pieces '*' k.toList with
    | [] | [_] => k.utf8ByteSize
    | piece :: _ => (String.ofList piece).utf8ByteSize + 1
  if base key != base other then base other < base key
  else if !other.toList.contains '*' then true
  else if !key.toList.contains '*' then false
  else other.utf8ByteSize < key.utf8ByteSize

/-- What a key with one `*`, or with a slash at its end, leaves open in a
subpath that fits it. -/
def fits? (key subpath : String) : Option String :=
  match Text.split '*' key with
  | [base, trailer] => do
    let rest ← Text.dropPrefix? base subpath
    guard (trailer = "" || key.utf8ByteSize ≤ subpath.utf8ByteSize)
    let back ← Text.after? trailer.toList.reverse rest.toList.reverse
    return String.ofList back.reverse
  | [whole] => do
    guard (whole.toList.getLast? == some '/')
    Text.dropPrefix? whole subpath
  | _ => none

/-- Whether a key can stand for several subpaths. -/
def isPattern (key : String) : Bool :=
  (Text.dropPrefix? "./" key).isSome || (Text.dropPrefix? "#" key).isSome

/-- The most specific of the keys that fit a subpath, with its target and
what it leaves open. -/
def bestFit (subpath : String) (members : List (Json.Spelling × Json)) :
    Option (String × Json × String) :=
  members.foldl (fun best (key, target) =>
    match key with
    | none => best
    | some key =>
      match (if isPattern key then fits? key subpath else none) with
      | none => best
      | some opened =>
        if isMoreSpecific key ((best.map (·.1)).getD "") then some (key, target, opened)
        else best) none

/-- Whether a target leads out of its package, or into packages installed
below it. -/
def isStray (target : String) : Bool :=
  (Path.mk target).components.any fun
    | .parent => true
    | .name entry => entry.toLower = "node_modules"
    | _ => false

/-- A target with what its key leaves open filled in. -/
def filledIn (directory : Path) (key target : String) : (opened : Option String) → Find String
  | none => return target
  | some opened =>
    if key.toList.contains '*' || target.toList.contains '*' then
      return Text.replaceAll "*" opened target
    else if key.toList.getLast? == some '/' && target.toList.getLast? == some '/' then
      return target ++ opened
    else stop (.mixedKeys directory)

/-- Where targets lead. -/
structure Opening where
  directory : Path
  /-- The conditions that hold, `default` aside. -/
  conditions : List String
  /-- Whether the targets are those of private imports, which may lead to
  other packages. -/
  isPrivate : Bool
  /-- How other packages are found. -/
  package : String → Find Path

namespace Opening

/-- Where a target that is a text leads. -/
def ofText (o : Opening) (key target : String) (opened : Option String) : Find Path := do
  if (Text.dropPrefix? "./" target).isNone then
    if !o.isPrivate || (Text.dropPrefix? "../" target).isSome || (Path.mk target).isAbsolute then
      stop (.strayTarget target)
    else o.package (← filledIn o.directory key target opened)
  else
    let target ← filledIn o.directory key target opened
    if isStray target then stop (.strayTarget target)
    else return o.directory.walk ⟨target⟩

/-- Where a target leads, under the key it belongs to and with what that
leaves open. -/
def target (o : Opening) (key : String) (opened : Option String) : Json → Find Path
  | .string (some text) => o.ofText key text opened
  | .object members => choice members
  | .array [] => stop (.notOpened (opened.getD "."))
  | .array items => attempt items
  | _ => failure
where
  /-- The first member whose condition holds and that leads somewhere. -/
  choice : List (Json.Spelling × Json) → Find Path
    | [] => failure
    | (condition, v) :: members =>
      if condition = some "default" || condition.any o.conditions.contains then
        target o key opened v <|> choice members
      else choice members
  /-- The first item that leads somewhere, wherever the others lead. -/
  attempt : List Json → Find Path
    | [] => failure
    | v :: items => unlessStopped (target o key opened v) <|> attempt items

/-- Where a subpath leads by the keys of an object. -/
def lookUp (o : Opening) (subpath : String) (members : List (Json.Spelling × Json)) : Find Path :=
  if subpath.toList.getLast? == some '/' then failure
  else
    match (if subpath.toList.contains '*' then none
        else members.find? (·.1 == some subpath)) with
    | some (_, v) => o.target subpath none v
    | none =>
      match bestFit subpath members with
      | some (key, v, opened) => o.target key (some opened) v
      | none => failure

/-- Whether a key is one of subpaths rather than a condition. -/
def isSubpathKey (key : Json.Spelling) : Bool :=
  match (key.getD "").toList.head? with
  | some '.' | some '#' => true
  | _ => false

/-- Where the package itself leads: its targets are all there is, or stand
under `.`. -/
def main? (exports : Json) : Option Json :=
  match exports with
  | .string _ | .array _ => some exports
  | .object members =>
    match exports.member? "." with
    | some v => some v
    | none =>
      if members.any fun (key, _) => isPattern (key.getD "") then none else some exports
  | _ => none

/-- Where a subpath of a package leads, `.` being the package itself. What
a package does not open stops the search. -/
def exported (o : Opening) (exports : Json) (subpath : String) : Find Path := do
  let keys := exports.members.map (·.1)
  if keys.any isSubpathKey && keys.any (!isSubpathKey ·) then stop (.mixedKeys o.directory)
  let trail ← getThe Trail
  if subpath = "." && (trail.query.isSome || trail.fragment.isSome) then
    stop (.notOpened subpath)
  (match main? exports with
    | some v => if subpath = "." then o.target "." none v else failure
    | none => failure)
    <|> o.lookUp subpath exports.members
    <|> stop (.notOpened subpath)

/-- Where a private import leads. An import that is not declared stops the
search where any are. -/
def imported (o : Opening) (imports : Json) (specifier : String) : Find Path :=
  match imports with
  | .object members =>
    if specifier = "#" || (Text.dropPrefix? "#/" specifier).isSome then
      stop (.notDeclared specifier)
    else o.lookUp specifier members <|> stop (.notDeclared specifier)
  | _ => failure

end Opening

end DepBundle.Resolution
