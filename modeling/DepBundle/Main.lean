import DepBundle.CommandLine.Report
/-!
# The command

Runs the command line on the files of the machine: what lies around the
working directory is read into a file tree, the run is made on it, and what
the run has changed is written back.
-/

namespace DepBundle.Command

/-- The place a path names that begins at the root. -/
def placeOf (path : String) : Place := (path.splitOn "/").filter (· ≠ "")

/-- A time in milliseconds with two places. -/
def elapsedText (nanoseconds : Nat) : String :=
  let hundredths := (nanoseconds + 5000) / 10000
  let places := toString (hundredths % 100)
  toString (hundredths / 100) ++ "." ++ (if places.length = 1 then "0" ++ places else places)
    ++ " ms"

/-- Where a path leads on the machine, if it leads anywhere. -/
def reached? (path : String) : IO (Option String) := do
  match ← (IO.FS.realPath path).toBaseIO with
  | .ok found => return some found.toString
  | .error _ => return none

/-- The topmost directory above a place that is a package or holds a
workspace, or else the place itself. -/
def topOf (place : Place) : IO Place := do
  let above := (List.range place.length).map fun n => place.take (n + 1)
  for candidate in above do
    let directory := (FileTree.pathOf candidate).text
    for marker in ["package.json", "pnpm-workspace.yaml"] do
      if (← reached? (directory ++ "/" ++ marker)).isSome then return candidate
  return place

/-- The tree with what lies in a directory of the machine. -/
partial def readInto (tree : FileTree) (directory : String) : IO FileTree := do
  let mut tree := tree
  for item in ← (← IO.FS.realPath directory).readDir do
    let path := directory ++ "/" ++ item.fileName
    let place := placeOf path
    match (← item.path.symlinkMetadata).type with
    | .dir => tree ← readInto (tree.put place .directory) path
    | .file => tree := tree.put place (.file (← IO.FS.readBinFile path))
    | .symlink =>
      if let some target ← reached? path then tree := tree.put place (.link ⟨target⟩)
    | .other => pure ()
  return tree

/-- Whether two entries are the same. -/
def sameEntry : Entry → Option Entry → Bool
  | .file a, some (.file b) => a == b
  | .directory, some .directory | .link _, some (.link _) => true
  | _, _ => false

/-- Writes to the machine what a run has changed. -/
def writeBack (before after : FileTree) : IO Unit := do
  for (place, _) in before.entries.entries.reverse do
    if (after.lookup place).isNone then
      let path ← IO.FS.realPath (FileTree.pathOf place).text
      if ← path.isDir then IO.FS.removeDirAll path else IO.FS.removeFile path
  for (place, entry) in after.entries.entries do
    let path := (FileTree.pathOf place).text
    if !sameEntry entry (before.lookup place) then
      match entry with
      | .directory => IO.FS.createDirAll path
      | .file content => IO.FS.writeBinFile path content
      | .link _ => pure ()

end DepBundle.Command

open DepBundle in
/-- Runs the command with its words and gives the code it ends with. -/
def main (words : List String) : IO UInt32 := do
  let begun ← IO.monoNanosNow
  let here := Command.placeOf (← IO.FS.realPath ".").toString
  let top ← Command.topOf here
  let before ← Command.readInto (.bare here) (FileTree.pathOf top).text
  let (report, after) := CommandLine.run words before
  Command.writeBack before after
  let taken := (← IO.monoNanosNow) - begun
  for line in report.text (Command.elapsedText taken) do IO.println line
  return report.code.toUInt32
