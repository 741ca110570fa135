import DepBundle.Text.Identifier
/-!
# Text — quoted strings

Strings as generated code writes them: between double quotes, with the
quote, the backslash and the control characters escaped and everything
else as it is. A property is named bare where its name is an identifier
and quoted otherwise.
-/

namespace DepBundle.Text

/-- The lower-case hexadecimal digit of a number below sixteen. -/
def hexDigit (n : Nat) : Char :=
  if n < 10 then Char.ofNat (0x30 + n) else Char.ofNat (0x57 + n)

/-- A character as it stands between the quotes. -/
def escapeChar (c : Char) : List Char :=
  if c = '"' then ['\\', '"']
  else if c = '\\' then ['\\', '\\']
  else if c = '\n' then ['\\', 'n']
  else if c = '\r' then ['\\', 'r']
  else if c = '\t' then ['\\', 't']
  else if c = '\x08' then ['\\', 'b']
  else if c = '\x0c' then ['\\', 'f']
  else if c.toNat < 0x20 then
    ['\\', 'u', '0', '0', hexDigit (c.toNat / 16), hexDigit (c.toNat % 16)]
  else [c]

/-- A string between double quotes. -/
def quoted (s : String) : String :=
  String.ofList ('"' :: s.toList.flatMap escapeChar ++ ['"'])

/-- Reading property `name` of `object`. -/
def propertyAccess (object name : String) : String :=
  if isIdentifierName name then object ++ "." ++ name
  else object ++ "[" ++ quoted name ++ "]"

/-- A name in an import or export clause. -/
def clauseName (name : String) : String :=
  if isIdentifierName name then name else quoted name

end DepBundle.Text
