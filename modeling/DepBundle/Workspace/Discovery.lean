import DepBundle.Glob.Match
import DepBundle.Workspace.Definition
import DepBundle.Workspace.Member
/-!
# Workspaces — finding their members

A pattern is matched one segment at a time against the directories below
the root, so that only directories that can still match are looked into.
Neither installed packages nor hidden directories are, unless a pattern
names them. A pattern after `!` takes away what others select.
-/

namespace DepBundle.Workspace

/-- Whether a segment of a pattern describes names rather than being one. -/
def isGlobSegment (segment : String) : Bool :=
  segment.toList.any fun c => c == '*' || c == '?' || c == '[' || c == '\x7b'

/-- Whether a name is that of a directory of installed packages or of a
hidden one. -/
def isPassedOver (name : String) : Bool := name == "node_modules" || name.toList.head? == some '.'

/-- The directories in a directory that are not passed over. -/
def subdirectories (t : FileTree) (directory : Path) : List Path :=
  ((t.list? directory).getD []).filter fun path =>
    t.isDirectory path && !path.fileName?.any isPassedOver

/-- Some directories and those up to `n` levels below them, level by level. -/
def levels (t : FileTree) : (n : Nat) → List Path → List Path
  | 0, level => level
  | n + 1, level => level ++
    match level.flatMap (subdirectories t) with
    | [] => []
    | below => levels t n below

/-- More levels than directories can have below one another: every entry
once, between any two links. -/
def levelLimit (t : FileTree) : Nat := (FileTree.linkLimit + 1) * (t.entries.size + 1)

/-- A directory and all directories below it. -/
def descendants (t : FileTree) (directory : Path) : List Path :=
  levels t (levelLimit t) [directory]

/-- The directories that a segment of a pattern leads to from another one. -/
def step (t : FileTree) (segment : String) (directory : Path) : List Path :=
  if segment = "**" then descendants t directory
  else if isGlobSegment segment then
    (subdirectories t directory).filter fun path =>
      path.fileName?.any (Glob.describes segment)
  else if t.isDirectory (directory / segment) then [directory / segment]
  else []

/-- The segments of a pattern that say something. -/
def segments (pattern : String) : List String :=
  (Text.split '/' pattern).filter fun segment => segment != "" && segment != "."

/-- The directories that a pattern leads to from the root. -/
def candidates (t : FileTree) (root : Path) (pattern : String) : List Path :=
  (segments pattern).foldl (fun directories segment => directories.flatMap (step t segment)) [root]

/-- A pattern without what surrounds it. -/
def tidy (pattern : String) : String :=
  let trimmed := Text.trim pattern
  let inner := (Text.dropPrefix? "./" trimmed).getD trimmed
  String.ofList (inner.toList.reverse.dropWhile (· == '/')).reverse

/-- The patterns after `!`, which take away. -/
def negations (patterns : List String) : List String :=
  (patterns.filterMap (Text.dropPrefix? "!")).map tidy

/-- The patterns that select. -/
def selections (patterns : List String) : List String :=
  (patterns.filter fun pattern => (Text.dropPrefix? "!" pattern).isNone).map tidy

/-- The members with the package in a directory, if there is one and its
name is new. -/
def withPackage (t : FileTree) (members : Members) (directory : Path) : Except Failure Members := do
  let path := directory / "package.json"
  if !t.isFile path then return members
  let manifest ← readManifest t path
  match manifest.name with
  | none => return members
  | some name => return members.insertNew name {
      location := directory.normalize
      dependencies := manifest.allDependencies?
      version := manifest.version }

/-- The members that patterns select. Of packages with one name the first
counts. -/
def select (t : FileTree) (root : Path) (patterns : List String) : Except Failure Members :=
  let excluded (directory : Path) : Bool :=
    let seen := Path.relative t.workingDirectory root directory
    (negations patterns).any (Glob.describes · seen)
  let directories := (selections patterns).flatMap (candidates t root)
  (directories.filter (!excluded ·)).foldlM (withPackage t) .empty

/-- A workspace. -/
structure Discovered where
  /-- The directory that defines it. -/
  root : Path
  members : Members

/-- The workspace that the first of some directories defines that defines
one. -/
def firstOf (t : FileTree) : List Path → Except Failure (Option Discovered)
  | [] => .ok none
  | directory :: above => do
    match ← definedIn t directory with
    | some patterns => return some ⟨directory, ← select t directory patterns⟩
    | none => firstOf t above

/-- The workspace around a directory. -/
def discover (t : FileTree) (start : Path) : Except Failure (Option Discovered) :=
  firstOf t start.ancestors

end DepBundle.Workspace
