import DepBundle.Path.Basic
/-!
# Modules — ids

A module is known by one string: the absolute path of its file, a marked
name for a module served from memory, or the specifier itself for a module
of the host. The mark is a character no path and no specifier contains.
-/

namespace DepBundle.Module

/-- What the id of a module served from memory begins with. -/
def virtualMark : String := "\x00virtual:"

/-- The id under which a module served from memory is known. -/
def virtualId (name : String) : String := virtualMark ++ name

/-- Whether an id is that of a module served from memory. -/
def isVirtual (id : String) : Bool := (Text.dropPrefix? virtualMark id).isSome

/-- The key of a module in the generated registry: the way to its file
from `base`, or the id as it is where it is no path. -/
def stableKey (current base : Path) (id : String) : String :=
  if (Path.mk id).isAbsolute then Path.relative current base ⟨id⟩ else id

/-- A key as messages show it. -/
def shownKey (key : String) : String := Text.replaceAll "\x00" "\\0" key

/-- What the contents of a file are. -/
inductive FileType where
  | js
  | jsx
  | ts
  | tsx
  | json
  /-- Anything that is no code. It is emitted as it is. -/
  | asset
deriving DecidableEq, Repr

namespace FileType

/-- What a file contains, by its extension. A file without one is a script. -/
def ofPath (path : Path) : FileType :=
  match path.extension? with
  | none | some "js" | some "mjs" | some "cjs" => js
  | some "jsx" => jsx
  | some "ts" | some "mts" | some "cts" => ts
  | some "tsx" => tsx
  | some "json" => json
  | some _ => asset

/-- Whether the contents have to be turned into plain scripts first. -/
def needsTransform : FileType → Bool
  | jsx | ts | tsx => true
  | _ => false

end FileType

end DepBundle.Module
