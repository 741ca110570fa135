/-!
# JSON — tokens

The tokens of a JSON text. A text is a sequence of tokens with blanks
between them; cutting it up needs no context. A string whose escapes leave
a surrogate without its partner is a token all the same, one that spells
no text: whether that matters depends on who reads it.
-/

namespace DepBundle.Json

/-- What a string literal spells: `none` where its escapes spell no text. -/
abbrev Spelling := Option String

/-- A token of a JSON text. -/
inductive Token where
  | openArray
  | closeArray
  | openObject
  | closeObject
  | comma
  | colon
  | null
  | bool (value : Bool)
  /-- A number as written. -/
  | number (text : String)
  | string (spelling : Spelling)
deriving DecidableEq, Repr

/-- Blanks between tokens. -/
def isBlank (c : Char) : Bool := c == ' ' || c == '\n' || c == '\t' || c == '\r'

/-- The value of a hexadecimal digit. -/
def hexValue? (c : Char) : Option Nat :=
  let n := c.toNat
  if 0x30 ≤ n && n ≤ 0x39 then some (n - 0x30)
  else if 0x41 ≤ n && n ≤ 0x46 then some (n - 0x37)
  else if 0x61 ≤ n && n ≤ 0x66 then some (n - 0x57)
  else none

/-- The number four hexadecimal digits stand for. -/
def hex4? (a b c d : Char) : Option Nat := do
  return ((← hexValue? a) * 16 + (← hexValue? b)) * 256 + (← hexValue? c) * 16 + (← hexValue? d)

/-- The character a one-letter escape stands for. -/
def shortEscape? : Char → Option Char
  | '"' => some '"'
  | '\\' => some '\\'
  | '/' => some '/'
  | 'b' => some '\x08'
  | 'f' => some '\x0c'
  | 'n' => some '\n'
  | 'r' => some '\r'
  | 't' => some '\t'
  | _ => none

/-- The inside of a string literal as code units, and what follows its
closing quote. Surrogates come one by one, as their escapes do. -/
def units? : List Char → Option (List Nat × List Char)
  | '"' :: rest => some ([], rest)
  | '\\' :: 'u' :: a :: b :: c :: d :: rest => do
    let unit ← hex4? a b c d
    let (units, rest) ← units? rest
    return (unit :: units, rest)
  | '\\' :: e :: rest => do
    let c ← shortEscape? e
    let (units, rest) ← units? rest
    return (c.toNat :: units, rest)
  | c :: rest =>
    if c.toNat < 0x20 || c = '\\' then none
    else do
      let (units, rest) ← units? rest
      return (c.toNat :: units, rest)
  | [] => none

/-- The text of code units, where each high surrogate has its low one. -/
def spell : List Nat → Option (List Char)
  | [] => some []
  | [u] => if 0xd800 ≤ u && u < 0xe000 then none else some [Char.ofNat u]
  | u :: v :: rest =>
    if 0xd800 ≤ u && u < 0xdc00 then
      if 0xdc00 ≤ v && v < 0xe000 then
        (spell rest).map (Char.ofNat (0x10000 + (u - 0xd800) * 0x400 + (v - 0xdc00)) :: ·)
      else none
    else if 0xdc00 ≤ u && u < 0xe000 then none
    else (spell (v :: rest)).map (Char.ofNat u :: ·)

/-- A nonempty run of digits and what follows it. -/
def digits? (cs : List Char) : Option (List Char × List Char) :=
  match cs.takeWhile Char.isDigit with
  | [] => none
  | ds => some (ds, cs.dropWhile Char.isDigit)

/-- The whole part of a number: no zero leads another digit. -/
def whole? : List Char → Option (List Char × List Char)
  | '0' :: rest => if rest.head?.any Char.isDigit then none else some (['0'], rest)
  | cs => digits? cs

/-- A number and what follows it. -/
def number? (cs : List Char) : Option (List Char × List Char) := do
  let (sign, cs) := match cs with
    | '-' :: rest => (['-'], rest)
    | cs => ([], cs)
  let (whole, cs) ← whole? cs
  let (fraction, cs) ← match cs with
    | '.' :: rest => do
      let (ds, rest) ← digits? rest
      pure ('.' :: ds, rest)
    | cs => pure ([], cs)
  let (exponent, cs) ← match cs with
    | e :: rest =>
      if e = 'e' || e = 'E' then do
        let (sign, rest) := match rest with
          | '+' :: rest => (['+'], rest)
          | '-' :: rest => (['-'], rest)
          | rest => ([], rest)
        let (ds, rest) ← digits? rest
        pure ('e' :: sign ++ ds, rest)
      else pure ([], e :: rest)
    | [] => pure ([], [])
  return (sign ++ whole ++ fraction ++ exponent, cs)

/-- The first token and what follows it. -/
def token? : List Char → Option (Token × List Char)
  | '[' :: rest => some (.openArray, rest)
  | ']' :: rest => some (.closeArray, rest)
  | '\x7b' :: rest => some (.openObject, rest)
  | '\x7d' :: rest => some (.closeObject, rest)
  | ',' :: rest => some (.comma, rest)
  | ':' :: rest => some (.colon, rest)
  | 'n' :: 'u' :: 'l' :: 'l' :: rest => some (.null, rest)
  | 't' :: 'r' :: 'u' :: 'e' :: rest => some (.bool true, rest)
  | 'f' :: 'a' :: 'l' :: 's' :: 'e' :: rest => some (.bool false, rest)
  | '"' :: rest => do
    let (units, rest) ← units? rest
    return (.string ((spell units).map String.ofList), rest)
  | cs => do
    let (text, rest) ← number? cs
    return (.number (String.ofList text), rest)

/-- At most `limit` tokens that make up the whole text. -/
def tokensUpTo : (limit : Nat) → List Char → Option (List Token)
  | limit, cs =>
    match cs.dropWhile isBlank with
    | [] => some []
    | rest =>
      match limit with
      | 0 => none
      | n + 1 => do
        let (token, rest) ← token? rest
        let tokens ← tokensUpTo n rest
        return token :: tokens

/-- The tokens of a text. Each takes a character at least, so there are
no more of them than characters. -/
def tokens? (s : String) : Option (List Token) := tokensUpTo s.length s.toList

end DepBundle.Json
