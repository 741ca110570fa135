import DepBundle.Text.Identifier
import DepBundle.Text.GraphicTable
/-!
# Text — strings in messages

A message shows a string between double quotes so that no two strings
look alike: characters without a graphic form, and those that would
attach to the one before them, appear by their code point.
-/

namespace DepBundle.Text

/-- The hexadecimal digits of a number, lower case, without leading zeros. -/
def hexDigits (n : Nat) : List Char := Nat.toDigits 16 n

/-- Characters a message writes as they are. -/
def isGraphic (c : Char) : Bool :=
  if c.toNat < 0x80 then 0x20 ≤ c.toNat && c.toNat < 0x7f
  else !Unicode.inRuns Unicode.nonGraphic c.toNat
    && !Unicode.inRuns Unicode.graphemeExtend c.toNat

/-- A character as a message writes it between quotes. -/
def showChar (c : Char) : List Char :=
  if c = '\x00' then ['\\', '0']
  else if c = '\t' then ['\\', 't']
  else if c = '\r' then ['\\', 'r']
  else if c = '\n' then ['\\', 'n']
  else if c = '\\' then ['\\', '\\']
  else if c = '"' then ['\\', '"']
  else if isGraphic c then [c]
  else ['\\', 'u', '\x7b'] ++ hexDigits c.toNat ++ ['\x7d']

/-- A string as a message shows it. -/
def shown (s : String) : String :=
  String.ofList ('"' :: s.toList.flatMap showChar ++ ['"'])

end DepBundle.Text
