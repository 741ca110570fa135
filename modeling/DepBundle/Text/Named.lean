import DepBundle.Text.NamedTable
/-!
# Text — named characters in a text

Characters of a text may be written by their names or their numbers,
between an ampersand and a semicolon. What names no character stays as it
is.
-/

namespace DepBundle.Text

/-- The value of a digit of a base. -/
def digitValue? (base : Nat) (c : Char) : Option Nat :=
  let value :=
    if c.isDigit then c.toNat - '0'.toNat
    else if 'a' ≤ c && c ≤ 'f' then c.toNat - 'a'.toNat + 10
    else if 'A' ≤ c && c ≤ 'F' then c.toNat - 'A'.toNat + 10
    else base
  if value < base then some value else none

/-- The number that digits of a base write, where there are any. -/
def number? (base : Nat) (cs : List Char) : Option Nat :=
  if cs.isEmpty then none
  else cs.foldlM (fun n c => (digitValue? base c).map (n * base + ·)) 0

/-- The character of a code point, where it has one. -/
def charOf? (n : Nat) : Option Char := if n.isValidChar then some (Char.ofNat n) else none

/-- The character that a name or number stands for. -/
def namedChar? (name : List Char) : Option Char :=
  match name with
  | '#' :: 'x' :: digits => (number? 16 digits).bind charOf?
  | '#' :: digits => (number? 10 digits).bind charOf?
  | name => (namedCharacters.lookup (String.ofList name)).bind charOf?

/-- The text before the next ampersand or semicolon. -/
def nameAt (cs : List Char) : List Char := cs.takeWhile fun c => c != ';' && c != '&'

/-- A text with its characters written out, `skip` of which have been. -/
def namedDecoded : (skip : Nat) → List Char → List Char
  | _, [] => []
  | n + 1, _ :: cs => namedDecoded n cs
  | 0, c :: cs =>
    if c == '&' then
      let name := nameAt cs
      match cs.drop name.length, namedChar? name with
      | ';' :: _, some named => named :: namedDecoded (name.length + 1) cs
      | _, _ => c :: namedDecoded 0 cs
    else c :: namedDecoded 0 cs

/-- A text with its characters written out. -/
def decodeNamed (s : String) : String := String.ofList (namedDecoded 0 s.toList)

end DepBundle.Text
