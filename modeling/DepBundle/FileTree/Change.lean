import DepBundle.FileTree.Basic
/-!
# File trees — changing them

Writing a file makes the directories that lead to it. A change that cannot
be made leaves the tree as it is.
-/

namespace DepBundle

namespace FileTree

/-- The longest name an entry may have, in bytes. -/
def nameLimit : Nat := 255

/-- Whether an entry may have a name. -/
def isEntryName (name : String) : Bool :=
  name.utf8ByteSize ≤ nameLimit && !name.toList.contains '\x00'

/-- The tree with an entry put at a place. -/
def put (t : FileTree) (place : Place) (entry : Entry) : FileTree :=
  { t with entries := t.entries.insert place entry }

/-- Follows the steps of a path and makes each directory that is missing. A
link that leads to no directory stands in the way. -/
def makeAlong (t : FileTree) (here : Place) : (steps : List Path.Component) → Option FileTree
  | [] => some t
  | .root :: steps => makeAlong t [] steps
  | .current :: steps => makeAlong t here steps
  | .parent :: steps => makeAlong t here.dropLast steps
  | .name entry :: steps =>
    match t.lookup (here ++ [entry]) with
    | none =>
      if isEntryName entry then
        makeAlong (t.put (here ++ [entry]) .directory) (here ++ [entry]) steps
      else none
    | some _ =>
      match t.follow false linkLimit here [.name entry] with
      | none => none
      | some there =>
        match t.lookup there with
        | some .directory => makeAlong t there steps
        | _ => none

/-- The tree with a directory at a path, and with those that lead to it. -/
def makeDirectories? (t : FileTree) (p : Path) : Option FileTree := do
  guard (p.text.utf8ByteSize < pathLimit)
  if p.text = "" then return t
  let made ← t.makeAlong t.workingPlace p.components
  guard (made.isDirectory p)
  return made

/-- The tree with a file at a path, and with the directories that lead to
it. A link at the end of the path stays, and the file it stands for is
written. -/
def write? (t : FileTree) (p : Path) (content : ByteArray) : Option FileTree := do
  let parent ← p.parent?
  let t ← t.makeDirectories? parent
  guard (p.text.utf8ByteSize < pathLimit && !asksDirectory p)
  let place ← t.follow true linkLimit t.workingPlace p.components
  match t.lookup place with
  | some (.file _) => return t.put place (.file content)
  | some _ => none
  | none => do
    guard (place.getLast?.any isEntryName)
    return t.put place (.file content)

/-- The tree with a link at a path, and with the directories that lead to
it. -/
def link? (t : FileTree) (p target : Path) : Option FileTree := do
  let t ← t.makeDirectories? p.directory
  let above ← t.locate? p.directory
  return t.put (above ++ [← p.fileName?]) (.link target)

/-- Entries without those at and below a place. -/
def without (above : Place) (entries : OrderedMap Place Entry) : OrderedMap Place Entry where
  entries := entries.entries.filter fun (place, _) => (below? above place).isNone
  nodup := entries.nodup.sublist (List.filter_sublist.map _)

/-- The tree without the place that a path leads to and all below it. -/
def remove (t : FileTree) (p : Path) : FileTree :=
  match t.locate? p with
  | some place => { t with entries := without place t.entries }
  | none => t

/-- The tree that holds nothing but a working directory and what leads to
it. -/
def bare (workingPlace : Place) : FileTree :=
  let t : FileTree := ⟨.empty, workingPlace⟩
  (t.makeDirectories? (pathOf workingPlace)).getD t

end FileTree

end DepBundle
