import DepBundle.Json.Token
/-!
# Syntax — what a literal spells

The text between the quotes of a string, or between the marks of a
template, and the characters it stands for. Where the text ends is settled
first and what its escapes mean afterwards, so each is a plain recursion.
-/

namespace DepBundle.Syntax

/-- The characters that end a line. -/
def isLineBreak (c : Char) : Bool :=
  c == '\n' || c == '\r' || c == '\u2028' || c == '\u2029'

/-- The text up to the closing `quote` and what follows the quote. An
escaped quote closes nothing, and a bare line break is allowed only
between quotes that are `long`. -/
def closed? (long : Bool) (quote : Char) : List Char → Option (List Char × List Char)
  | [] => none
  | '\\' :: '\r' :: '\n' :: cs => do
    let (text, rest) ← closed? long quote cs
    return ('\\' :: '\r' :: '\n' :: text, rest)
  | '\\' :: c :: cs => do
    let (text, rest) ← closed? long quote cs
    return ('\\' :: c :: text, rest)
  | c :: cs =>
    if c = quote then some ([], cs)
    else if !long && (c == '\n' || c == '\r') then none
    else do
      let (text, rest) ← closed? long quote cs
      return (c :: text, rest)

/-- A piece of a template: its text, whether the template ends there, and
what follows. -/
def piece? : List Char → Option (List Char × Bool × List Char)
  | [] => none
  | '`' :: cs => some ([], true, cs)
  | '$' :: '\x7b' :: cs => some ([], false, cs)
  | '\\' :: c :: cs => do
    let (text, last, rest) ← piece? cs
    return ('\\' :: c :: text, last, rest)
  | c :: cs => do
    let (text, last, rest) ← piece? cs
    return (c :: text, last, rest)

/-- The value of an octal digit. -/
def octalValue? (c : Char) : Option Nat :=
  if '0' ≤ c ∧ c ≤ '7' then some (c.toNat - 0x30) else none

/-- The character an escape of one letter stands for. -/
def letterEscape (c : Char) : Nat :=
  match c with
  | 'n' => 0x0a
  | 't' => 0x09
  | 'r' => 0x0d
  | 'b' => 0x08
  | 'v' => 0x0b
  | 'f' => 0x0c
  | c => c.toNat

/-- The number that an octal escape of first digit `v` stands for, and how
many more digits it has; there are three at most, and two where three would
be too many for a byte. -/
def octalEscape (v : Nat) (cs : List Char) : Nat × Nat :=
  match cs.head?.bind octalValue?, (cs.drop 1).head?.bind octalValue? with
  | none, _ => (v, 0)
  | some w, none => (v * 8 + w, 1)
  | some w, some x => if v < 4 then (v * 64 + w * 8 + x, 2) else (v * 8 + w, 1)

/-- The number that an escape by `c`, with `cs` after it, stands for, and
how many more characters it takes. Octal escapes have no place in a
template. -/
def plainEscape? (template : Bool) (c : Char) (cs : List Char) : Option (Nat × Nat) :=
  if template then
    if c = '0' && !(cs.head?.any Char.isDigit) then some (0, 0)
    else if c.isDigit then none
    else some (letterEscape c, 0)
  else match octalValue? c with
    | none => some (letterEscape c, 0)
    | some v => some (octalEscape v cs)

/-- The code units a text stands for; surrogates come one by one, as they
are escaped. `wide` is the number read so far where the text begins inside
braces. -/
def unescape (template : Bool) : (wide : Option Nat) → List Char → Option (List Nat)
  | none, [] => some []
  | some _, [] => none
  | some n, c :: cs =>
    if c = '\x7d' then
      if n < 0x110000 then (unescape template none cs).map (n :: ·) else none
    else match Json.hexValue? c with
      | some v => unescape template (some (n * 16 + v)) cs
      | none => none
  | none, '\\' :: 'x' :: a :: b :: cs => do
    let a ← Json.hexValue? a
    let b ← Json.hexValue? b
    let units ← unescape template none cs
    return (a * 16 + b) :: units
  | none, '\\' :: 'u' :: '\x7b' :: c :: cs =>
    match Json.hexValue? c with
    | some v => unescape template (some v) cs
    | none => none
  | none, '\\' :: 'u' :: a :: b :: c :: d :: cs => do
    let unit ← Json.hex4? a b c d
    let units ← unescape template none cs
    return unit :: units
  | none, '\\' :: '\r' :: '\n' :: cs => unescape template none cs
  | none, '\\' :: c :: cs =>
    if c = 'x' || c = 'u' then none
    else if isLineBreak c then unescape template none cs
    else match plainEscape? template c cs with
      | none => none
      | some (unit, more) =>
        match more, cs with
        | 1, _ :: cs => (unescape template none cs).map (unit :: ·)
        | 2, _ :: _ :: cs => (unescape template none cs).map (unit :: ·)
        | _, cs => (unescape template none cs).map (unit :: ·)
  | none, '\r' :: '\n' :: cs =>
    (unescape template none cs).map fun units =>
      if template then 0x0a :: units else 0x0d :: 0x0a :: units
  | none, c :: cs => (unescape template none cs).map (c.toNat :: ·)

/-- A lone surrogate, or a replacement character beside one, as a
replacement character with its code. -/
def markedUnit (u : Nat) : List Char :=
  '\ufffd' :: [u / 0x1000, u / 0x100 % 16, u / 0x10 % 16, u % 16].map fun d =>
    if d < 10 then Char.ofNat (0x30 + d) else Char.ofNat (0x57 + d)

/-- The characters of code units in which surrogates may be alone. -/
def spellMarked : List Nat → List Char
  | [] => []
  | [u] => if (0xd800 ≤ u && u < 0xe000) || u = 0xfffd then markedUnit u else [Char.ofNat u]
  | u :: v :: rest =>
    if 0xd800 ≤ u && u < 0xdc00 && 0xdc00 ≤ v && v < 0xe000 then
      Char.ofNat (0x10000 + (u - 0xd800) * 0x400 + (v - 0xdc00)) :: spellMarked rest
    else if (0xd800 ≤ u && u < 0xe000) || u = 0xfffd then markedUnit u ++ spellMarked (v :: rest)
    else Char.ofNat u :: spellMarked (v :: rest)

/-- What code units spell, and whether each surrogate has its partner. -/
def spelling (units : List Nat) : String × Bool :=
  match Json.spell units with
  | some cs => (String.ofList cs, true)
  | none => (String.ofList (spellMarked units), false)

/-- The value of a template without substitutions, by its text. -/
def cooked? (text : String) : Option String :=
  (unescape true none text.toList).map fun units => (spelling units).1

end DepBundle.Syntax
