/-!
# Globs — patterns

A glob pattern as a sequence of atoms over the bytes of a path. `*` stays
within one segment of the path; `**` standing as a whole segment takes any
number of them; braces list alternatives, brackets a set of bytes. A
pattern that cannot be completed holds an atom that matches nothing.
-/

namespace DepBundle.Glob

/-- An atom of a pattern. -/
inductive Atom where
  /-- This byte. -/
  | byte (b : UInt8)
  /-- Any byte but the separator. -/
  | one
  /-- A byte in one of the ranges, or in none of them where `negated`. -/
  | set (negated : Bool) (ranges : List (UInt8 × UInt8))
  /-- Any bytes but separators. -/
  | star
  /-- Any number of whole segments, each with its separator. -/
  | segments
  /-- All that remains. -/
  | all
  /-- One of these patterns. -/
  | either (branches : List (List Atom))
  /-- Nothing. -/
  | never

/-- A pattern. -/
abbrev Pattern := List Atom

/-- The byte that separates segments. -/
def separator : UInt8 := 0x2f

/-- The byte an escaped one stands for. -/
def unescape (b : UInt8) : UInt8 :=
  if b = 0x62 then 0x08 else if b = 0x6e then 0x0a else if b = 0x72 then 0x0d
  else if b = 0x74 then 0x09 else b

/-- A byte of a set, perhaps escaped. -/
def setByte? : List UInt8 → Option (UInt8 × List UInt8)
  | 0x5c :: b :: rest => some (unescape b, rest)
  | 0x5c :: [] => none
  | b :: rest => some (b, rest)
  | [] => none

/-- The ranges of a set up to the bracket that closes it, which cannot be
its first byte. At most `limit` of them are read. -/
def ranges? : (limit : Nat) → (isFirst : Bool) → List UInt8 →
    Option (List (UInt8 × UInt8) × List UInt8)
  | _, false, 0x5d :: rest => some ([], rest)
  | 0, _, _ => none
  | n + 1, _, bytes => do
    let (low, rest) ← setByte? bytes
    match rest with
    | 0x2d :: next :: after =>
      if next = 0x5d then do
        let (more, rest) ← ranges? n false rest
        return ((low, low) :: more, rest)
      else do
        let (high, rest) ← setByte? (next :: after)
        let (more, rest) ← ranges? n false rest
        return ((low, high) :: more, rest)
    | _ => do
      let (more, rest) ← ranges? n false rest
      return ((low, low) :: more, rest)

/-- Extra separators and `**` segments that repeat one just read. -/
def dropRepeated : List UInt8 → List UInt8
  | 0x2f :: 0x2a :: 0x2a :: 0x2f :: rest => dropRepeated (0x2f :: rest)
  | [0x2f, 0x2a, 0x2a] => []
  | rest => rest

/-- A brace that is open: the branches complete so far and the atoms before
the brace, both latest first. -/
structure Brace where
  branches : List Pattern
  before : Pattern

/-- Reads a pattern: the atoms read in the current branch and the open
braces, latest first. `start` tells that a segment begins here. -/
def read : (limit : Nat) → (start : Bool) → List UInt8 → Pattern → List Brace → Pattern
  | 0, _, _, acc, _ => (.never :: acc).reverse
  | _, _, [], acc, braces =>
    -- a brace without its end keeps the branches that are complete, and
    -- any brace inside it stands in its last branch, which is not
    match braces.getLast? with
    | none => acc.reverse
    | some brace => (.either brace.branches.reverse :: brace.before).reverse
  | n + 1, start, 0x2a :: 0x2a :: rest, acc, braces =>
    let rest := dropRepeated rest
    match start, rest with
    | true, [] => read n false [] (.all :: acc) braces
    | true, 0x2f :: rest => read n true rest (.segments :: acc) braces
    | _, rest => read n false rest (.star :: acc) braces
  | n + 1, _, 0x2a :: rest, acc, braces => read n false rest (.star :: acc) braces
  | n + 1, _, 0x3f :: rest, acc, braces => read n false rest (.one :: acc) braces
  | n + 1, _, 0x5b :: rest, acc, braces =>
    let (negated, rest) := match rest with
      | 0x5e :: rest => (true, rest)
      | 0x21 :: rest => (true, rest)
      | rest => (false, rest)
    match ranges? n true rest with
    | some (ranges, rest) => read n false rest (.set negated ranges :: acc) braces
    | none => read n false [] (.never :: acc) braces
  | n + 1, _, 0x7b :: rest, acc, braces => read n true rest [] (⟨[], acc⟩ :: braces)
  | n + 1, _, 0x7d :: rest, acc, brace :: braces =>
    read n false rest (.either (acc.reverse :: brace.branches).reverse :: brace.before) braces
  | n + 1, _, 0x2c :: rest, acc, brace :: braces =>
    read n true rest [] (⟨acc.reverse :: brace.branches, brace.before⟩ :: braces)
  | n + 1, _, 0x5c :: b :: rest, acc, braces =>
    read n false rest (.byte (unescape b) :: acc) braces
  | n + 1, _, 0x5c :: [], acc, braces => read n false [] (.never :: acc) braces
  | n + 1, _, b :: rest, acc, braces => read n (b == separator) rest (.byte b :: acc) braces

/-- The pattern a text writes, below its leading exclamation marks. Such a
mark keeps a `**` right behind it from being a segment of its own. -/
def Pattern.ofBytes (plain : Bool) (bytes : List UInt8) : Pattern :=
  read (bytes.length + 1) plain bytes [] []

end DepBundle.Glob
