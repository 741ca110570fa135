import DepBundle.Data.OrderedMap
import DepBundle.Path.Basic
/-!
# File trees — what lies where

A file tree says for every place what lies there: a file, a symbolic link,
a directory, or nothing. A place is the list of names that lead to it from
the root, without links and without steps up; a path leads to a place once
its links are followed. Paths that do not begin at the root begin at the
working directory of the tree.
-/

namespace DepBundle

/-- The names that lead from the root to some place. -/
abbrev Place := List String

/-- What lies at a place. -/
inductive Entry where
  | file (content : ByteArray)
  /-- A symbolic link, with the path it stands for. -/
  | link (target : Path)
  | directory
deriving Inhabited

/-- What lies where. -/
structure FileTree where
  /-- The entries by place, the root aside. -/
  entries : OrderedMap Place Entry
  /-- Where paths begin that do not begin at the root. -/
  workingPlace : Place
deriving Inhabited

namespace FileTree

/-- How many links one path may lead through. -/
def linkLimit : Nat := 40

/-- Paths have to be shorter than this, in bytes. -/
def pathLimit : Nat := 4096

/-- What lies at a place. The root is a directory. -/
def lookup (t : FileTree) (place : Place) : Option Entry :=
  if place.isEmpty then some .directory else t.entries.get? place

/-- The path of a place. -/
def pathOf (place : Place) : Path := ⟨"/" ++ "/".intercalate place⟩

/-- The working directory. -/
def workingDirectory (t : FileTree) : Path := pathOf t.workingPlace

/-- Where the steps of a path lead from a place. At a link `jump` says where
its steps and the remaining ones lead. With `open'`, nothing need lie at the
very last step. -/
def descend (t : FileTree) (open' : Bool) (jump : Place → List Path.Component → Option Place)
    (here : Place) : (steps : List Path.Component) → Option Place
  | [] => some here
  | .root :: steps => descend t open' jump [] steps
  | .current :: steps => descend t open' jump here steps
  | .parent :: steps => descend t open' jump here.dropLast steps
  | .name entry :: steps =>
    let there := here ++ [entry]
    match t.lookup there with
    | some .directory => descend t open' jump there steps
    | some (.file _) => if steps.isEmpty then some there else none
    | some (.link target) => jump here (target.components ++ steps)
    | none => if open' && steps.isEmpty then some there else none

/-- Where the steps of a path lead from a place, through at most `links`
links. -/
def follow (t : FileTree) (open' : Bool) : (links : Nat) → Place → List Path.Component →
    Option Place
  | 0 => t.descend open' fun _ _ => none
  | links + 1 => t.descend open' (follow t open' links)

/-- Whether a path says that it leads to a directory, by how it ends. -/
def asksDirectory (p : Path) : Bool :=
  match p.text.toList.reverse with
  | '/' :: _ | '.' :: '/' :: _ => true
  | _ => false

/-- The place that a path leads to, where something lies there. -/
def locate? (t : FileTree) (p : Path) : Option Place := do
  guard (p.text != "" && p.text.utf8ByteSize < pathLimit && !p.text.toList.contains '\x00')
  let place ← t.follow false linkLimit t.workingPlace p.components
  match t.lookup place with
  | some .directory => some place
  | some (.file _) => if asksDirectory p then none else some place
  | _ => none

/-- What a path leads to. -/
def entry? (t : FileTree) (p : Path) : Option Entry := do t.lookup (← t.locate? p)

/-- Whether a path leads anywhere. -/
def contains (t : FileTree) (p : Path) : Bool := (t.locate? p).isSome

/-- Whether a path leads to a file. -/
def isFile (t : FileTree) (p : Path) : Bool :=
  match t.entry? p with
  | some (.file _) => true
  | _ => false

/-- Whether a path leads to a directory. -/
def isDirectory (t : FileTree) (p : Path) : Bool :=
  match t.entry? p with
  | some .directory => true
  | _ => false

/-- The contents of the file that a path leads to. -/
def readBytes? (t : FileTree) (p : Path) : Option ByteArray :=
  match t.entry? p with
  | some (.file content) => some content
  | _ => none

/-- The text in the file that a path leads to. -/
def readText? (t : FileTree) (p : Path) : Option String := do
  String.fromUTF8? (← t.readBytes? p)

/-- The path without links and steps up that leads to the same place. -/
def canonical? (t : FileTree) (p : Path) : Option Path := (t.locate? p).map pathOf

/-- The last name of a place that lies directly below another. -/
def nameBelow? : (above place : Place) → Option String
  | [], [name] => some name
  | a :: above, b :: place => if a = b then nameBelow? above place else none
  | _, _ => none

/-- The names directly below a place, in order. -/
def namesBelow (t : FileTree) (place : Place) : List String :=
  (t.entries.keys.filterMap (nameBelow? place)).mergeSort (· ≤ ·)

/-- The names in the directory that a path leads to, in order. -/
def names? (t : FileTree) (p : Path) : Option (List String) :=
  match t.locate? p with
  | some place => if t.isDirectory p then some (t.namesBelow place) else none
  | none => none

/-- The paths of what is in the directory that `p` leads to, in order. -/
def list? (t : FileTree) (p : Path) : Option (List Path) :=
  (t.names? p).map fun names => names.map (p / ·)

/-- What is left of a place below another. -/
def below? : (above place : Place) → Option Place
  | [], rest => some rest
  | a :: above, b :: place => if a = b then below? above place else none
  | _ :: _, [] => none

/-- Everything but directories below the directory that a path leads to:
where it lies from there, and the contents of what is a file. -/
def snapshot (t : FileTree) (p : Path) : List (String × Option ByteArray) :=
  match (if t.isDirectory p then t.locate? p else none) with
  | none => []
  | some above => t.entries.entries.filterMap fun (place, entry) => do
    let rest ← below? above place
    match entry with
    | .file content => some ("/".intercalate rest, some content)
    | .link _ => some ("/".intercalate rest, none)
    | .directory => none

end FileTree

end DepBundle
