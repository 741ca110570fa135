import DepBundle.FileTree.Change
import DepBundle.Package.Specifier
import DepBundle.Workspace.Discovery
/-!
# Workspaces — packing what members need

The packages that some members need are packed a few at a time. The calls
of a batch take turns until each has ended; the next batch begins after
that. The first call to fail ends everything.
-/

namespace DepBundle.Workspace

/-- Why a package cannot be packed. -/
inductive PackCause where
  /-- A file of the package cannot be read. -/
  | unreadable (path : Path)
  /-- A directory cannot be read or made, or a file not written. -/
  | fileSystem
  /-- The packager refuses. -/
  | refused (reason : String)
deriving DecidableEq, Repr

/-- Why packing fails. -/
structure PackFailure where
  name : String
  cause : PackCause
deriving DecidableEq, Repr

/-- The wording of why packing fails. -/
def PackFailure.message (f : PackFailure) : String :=
  "Failed to pack workspace package " ++ f.name ++
    match f.cause with
    | .unreadable path => ": Failed to read " ++ path.text
    | .fileSystem => ""
    | .refused reason => ": " ++ reason

/-- What comes of a call's turn. -/
inductive Turn where
  /-- The call goes on at its next turn. -/
  | pause
  /-- The package is packed, and this is where. -/
  | done (location : Path)
  | fail (cause : PackCause)

/-- A way to pack packages, one turn after another, in a world that it
changes. -/
structure Packager (World : Type) where
  /-- The turn of a call that had `n` turns before. -/
  turn : (name : String) → Member → (n : Nat) → World → Turn × World
  /-- How many turns a call can take. -/
  patience : Nat

/-- A call: a package and, once it is packed, where. -/
structure Call where
  name : String
  member : Member
  location : Option Path := none

variable {World : Type}

/-- One turn for each call that has not ended, up to the first that fails. -/
def takeTurns (p : Packager World) (n : Nat) :
    List Call → World → Except PackFailure (List Call) × World
  | [], w => (.ok [], w)
  | c :: cs, w =>
    if c.location.isSome then
      match takeTurns p n cs w with
      | (.ok cs, w) => (.ok (c :: cs), w)
      | (.error f, w) => (.error f, w)
    else
      match p.turn c.name c.member n w with
      | (.fail cause, w) => (.error ⟨c.name, cause⟩, w)
      | (.pause, w) =>
        match takeTurns p n cs w with
        | (.ok cs, w) => (.ok (c :: cs), w)
        | (.error f, w) => (.error f, w)
      | (.done location, w) =>
        match takeTurns p n cs w with
        | (.ok cs, w) => (.ok ({ c with location := some location } :: cs), w)
        | (.error f, w) => (.error f, w)

/-- Turns for the calls of a batch until all have ended; `more` bounds how
many. -/
def packBatch (p : Packager World) : (more n : Nat) → List Call → World →
    Except PackFailure (List Call) × World
  | 0, _, calls, w => (.ok calls, w)
  | more + 1, n, calls, w =>
    match takeTurns p n calls w with
    | (.error f, w) => (.error f, w)
    | (.ok calls, w) =>
      if calls.all (·.location.isSome) then (.ok calls, w)
      else packBatch p more (n + 1) calls w

/-- How many packages are packed at a time. -/
def batchSize : Nat := 5

/-- A list cut into pieces of a size, the last perhaps shorter. -/
def batches {α : Type} (size : Nat) (items : List α) : List (List α) :=
  cut items items.length
where
  cut (items : List α) : Nat → List (List α)
    | 0 => []
    | n + 1 =>
      match items with
      | [] => []
      | _ => items.take size :: cut (items.drop size) n

/-- Packs batch after batch. -/
def packBatches (p : Packager World) : List (List Call) → World →
    Except PackFailure (List (String × Path)) × World
  | [], w => (.ok [], w)
  | batch :: more, w =>
    match packBatch p p.patience 0 batch w with
    | (.error f, w) => (.error f, w)
    | (.ok calls, w) =>
      let packed := calls.filterMap fun c => c.location.map (c.name, ·)
      match packBatches p more w with
      | (.ok rest, w) => (.ok (packed ++ rest), w)
      | (.error f, w) => (.error f, w)

/-- Packs what some members need, themselves included: where each package
went, nearest first. -/
def packNeeded (p : Packager World) (members : Members) (names : List String) (w : World) :
    Except PackFailure (List (String × Path)) × World :=
  let calls := (needed members names).toList.filterMap fun name =>
    (members.get? name).map fun m => ({ name, member := m } : Call)
  packBatches p (batches batchSize calls) w

/-! ## Copying -/

/-- What copying comes to. -/
abbrev Copied := Except PackCause Unit × FileTree

/-- Copies the file at a path. -/
def copyFile (source target : Path) (t : FileTree) : Copied :=
  match t.readBytes? source with
  | none => (.error (.unreadable source), t)
  | some content =>
    match t.write? target content with
    | some t => (.ok (), t)
    | none => (.error .fileSystem, t)

/-- Copies entries of a directory one after another, each in the way that
`directory` and `copyFile` give, up to the first that cannot be. -/
def copyEntries (directory : Path → Path → FileTree → Copied) (target : Path) :
    List Path → FileTree → Copied
  | [], t => (.ok (), t)
  | entry :: entries, t =>
    match entry.fileName? with
    | none => copyEntries directory target entries t
    | some name =>
      let (result, t) :=
        if t.isDirectory entry then
          if isPassedOver name then (.ok (), t) else directory entry (target / name) t
        else copyFile entry (target / name) t
      match result with
      | .ok () => copyEntries directory target entries t
      | .error cause => (.error cause, t)

/-- Copies a directory, without installed packages and hidden directories,
and with at most `n` directories inside one another. -/
def copyDirectory : (n : Nat) → (source target : Path) → FileTree → Copied
  | 0, _, _, t => (.error .fileSystem, t)
  | n + 1, source, target, t =>
    match t.makeDirectories? target with
    | none => (.error .fileSystem, t)
    | some t =>
      match t.list? source with
      | none => (.error .fileSystem, t)
      | some entries => copyEntries (copyDirectory n) target entries t

/-- Packs a package by copying its directory, all in one turn. A path has no
room for more directories than it may have characters. -/
def copying (destination : Path) : Packager FileTree where
  turn name member _ t :=
    let target := destination / Package.flatten name
    match copyDirectory FileTree.pathLimit member.location target t with
    | (.ok (), t) => (.done target, t)
    | (.error cause, t) => (.fail cause, t)
  patience := 1

end DepBundle.Workspace
