import DepBundle.Number.Text
import DepBundle.Text.Quoted
/-!
# Printing — literals

How strings, directives and numbers are written. A string stands between
double quotes; what cannot stand there as it is, or would not be seen, is
escaped.
-/

namespace DepBundle.Print

/-- Two hexadecimal digits. -/
def byteDigits (n : Nat) : List Char := [Text.hexDigit (n / 16), Text.hexDigit (n % 16)]

/-- The value of a lower-case hexadecimal digit. -/
def isMarkDigit (c : Char) : Bool := c.isDigit || ('a' ≤ c && c ≤ 'f')

/-- Whether a text goes on like the end of a script does in a page. -/
def endsScript (cs : List Char) : Bool :=
  (cs.take 7).map Char.toLower == "/script".toList

/-- The text of a string, to stand between double quotes. A replacement
character before four digits is the mark of a lone surrogate. -/
def escaped : List Char → List Char
  | [] => []
  | '\ufffd' :: a :: b :: c :: d :: cs =>
    if [a, b, c, d].all isMarkDigit then '\\' :: 'u' :: a :: b :: c :: d :: escaped cs
    else '\ufffd' :: escaped (a :: b :: c :: d :: cs)
  | c :: cs =>
    let written := match c with
      | '\x00' => if cs.head?.any Char.isDigit then ['\\', 'x', '0', '0'] else ['\\', '0']
      | '\x07' => ['\\', 'x', '0', '7']
      | '\x08' => ['\\', 'b']
      | '\x0b' => ['\\', 'v']
      | '\x0c' => ['\\', 'f']
      | '\n' => ['\\', 'n']
      | '\r' => ['\\', 'r']
      | '\x1b' => ['\\', 'x', '1', 'B']
      | '\\' => ['\\', '\\']
      | '"' => ['\\', '"']
      | '\u2028' => ['\\', 'u', '2', '0', '2', '8']
      | '\u2029' => ['\\', 'u', '2', '0', '2', '9']
      | '\xa0' => ['\\', 'x', 'A', '0']
      | '<' => if endsScript cs then ['<', '\\'] else ['<']
      | c => [c]
    written ++ escaped cs

/-- A string as it is written. -/
def stringText (value : String) : String := "\"" ++ String.ofList (escaped value.toList) ++ "\""

/-- The first quote in the text of a directive that is not escaped. -/
def firstQuote : List Char → Option Char
  | [] => none
  | '\\' :: _ :: cs => firstQuote cs
  | c :: cs => if c == '"' || c == '\'' then some c else firstQuote cs

/-- A directive as it is written: its text unchanged, between quotes that it
does not hold. -/
def directiveText (text : String) : String :=
  let quote := if firstQuote text.toList = some '"' then "'" else "\""
  quote ++ text ++ quote

/-- A number as it is written. -/
def numberText (numeral : String) : String :=
  match Number.ofNumeral (String.ofList (numeral.toList.filter (· != '_'))) with
  | some d => Number.brief d
  | none => "Infinity"

/-- Whether a number is written in full, without a point. -/
def isBareNumber (text : String) : Bool := text.toList.all Char.isDigit

end DepBundle.Print
