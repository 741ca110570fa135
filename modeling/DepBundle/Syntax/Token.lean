import DepBundle.Syntax.Spelling
import DepBundle.Text.Identifier
import DepBundle.Text.Segment
/-!
# Syntax — tokens

The tokens of a program and the blanks between them. `lexeme` reads the
token a text begins with as far as that is possible without knowing what
may come: a slash is read as an operator and a closing brace as a brace,
and whoever expects more reads on from there.
-/

namespace DepBundle.Syntax

/-- How a text is to be read. -/
structure Dialect where
  /-- A module from the start: `await` is an operator throughout. -/
  isModule : Bool := false
  /-- A script for certain: the old comment marks are comments. -/
  isScript : Bool := false
  /-- With types. -/
  typed : Bool := false
  /-- With elements. -/
  markup : Bool := false
deriving DecidableEq, Repr, Inhabited

/-- A comment as written, and where it stands. -/
structure Comment where
  isBlock : Bool
  text : String
  start : Nat
  stop : Nat
deriving DecidableEq, Repr, Inhabited

/-- A token. -/
inductive Token where
  /-- The end of the text. -/
  | finish
  /-- A name or keyword, and whether it is written with escapes. -/
  | word (text : String) (escaped : Bool)
  | privateWord (text : String)
  /-- An operator or a bracket. -/
  | mark (text : String)
  | number (text : String)
  | bigint (text : String)
  /-- A string: its value, its text, and whether the value is sound. -/
  | string (value text : String) (sound : Bool)
  /-- A piece of a template, and whether it is the last one. -/
  | piece (text : String) (last : Bool)
  | regex (text : String)
  /-- Text between elements. -/
  | plain (text : String)
  /-- Nothing that is a token. -/
  | invalid
deriving DecidableEq, Repr, Inhabited

/-! ## Blanks -/

/-- Characters between tokens that end no line. -/
def isBlankChar (c : Char) : Bool :=
  let n := c.toNat
  n == 0x20 || n == 9 || n == 0x0b || n == 0x0c || n == 0xa0 || n == 0xfeff || n == 0x85
    || n == 0x1680 || n == 0x180e || (0x2000 ≤ n && n ≤ 0x200b) || n == 0x202f
    || n == 0x205f || n == 0x3000

/-- What stands before a token. -/
structure Gap where
  /-- Whether a line ends in it. -/
  newline : Bool
  comments : List Comment
  /-- Where it ends. -/
  stop : Nat
  rest : List Char

/-- What a place between tokens is part of. -/
inductive Between where
  | blank
  /-- A comment of one line, its text so far in reverse. -/
  | line (start : Nat) (text : List Char)
  /-- A comment with an end of its own. -/
  | block (start : Nat) (text : List Char)

/-- A comment that ends at `stop`. -/
def Between.comment (start stop : Nat) (isBlock : Bool) (text : List Char) : Comment :=
  ⟨isBlock, String.ofList text.reverse, start, stop⟩

/-- The blanks and comments from a place on. `old` says whether the old
comment marks are comments, `fresh` whether nothing but blanks stands
before them on the line. A comment that does not end leaves its opening
mark in place. -/
def gap (old : Bool) : Between → (stop : Nat) → (fresh : Bool) → List Char → Option Gap
  | .blank, n, fresh, '/' :: '/' :: cs => gap old (.line n ['/', '/']) (n + 2) fresh cs
  | .blank, n, fresh, '/' :: '*' :: cs => gap old (.block n ['*', '/']) (n + 2) fresh cs
  | .blank, n, fresh, '<' :: '!' :: '-' :: '-' :: cs =>
    if old then gap old (.line n ['-', '-', '!', '<']) (n + 4) fresh cs
    else some ⟨fresh, [], n, '<' :: '!' :: '-' :: '-' :: cs⟩
  | .blank, n, fresh, '-' :: '-' :: '>' :: cs =>
    if old && fresh then gap old (.line n ['>', '-', '-']) (n + 3) fresh cs
    else some ⟨fresh, [], n, '-' :: '-' :: '>' :: cs⟩
  | .blank, n, fresh, c :: cs =>
    if isLineBreak c then gap old .blank (n + 1) true cs
    else if isBlankChar c then gap old .blank (n + 1) fresh cs
    else some ⟨fresh, [], n, c :: cs⟩
  | .blank, n, fresh, [] => some ⟨fresh, [], n, []⟩
  | .line start text, n, fresh, c :: cs =>
    if isLineBreak c then
      (gap old .blank (n + 1) true cs).map fun g =>
        { g with comments := Between.comment start n false text :: g.comments }
    else gap old (.line start (c :: text)) (n + 1) fresh cs
  | .line start text, n, fresh, [] => some ⟨fresh, [Between.comment start n false text], n, []⟩
  | .block start text, n, fresh, '*' :: '/' :: cs =>
    (gap old .blank (n + 2) fresh cs).map fun g =>
      { g with comments := Between.comment start (n + 2) true ('/' :: '*' :: text) :: g.comments }
  | .block start text, n, fresh, c :: cs =>
    gap old (.block start (c :: text)) (n + 1) (fresh || isLineBreak c) cs
  | .block _ _, _, _, [] => none

/-! ## Names -/

/-- The character of an escape in braces, how long the escape is from
there, and what follows. -/
def braced? : (value count : Nat) → List Char → Option (Nat × Nat × List Char)
  | value, count, c :: cs =>
    if c = '\x7d' then some (value, count + 1, cs)
    else (Json.hexValue? c).bind fun v => braced? (value * 16 + v) (count + 1) cs
  | _, _, [] => none

/-- The character an escape in a name stands for, the length of the
escape, and what follows. -/
def nameEscape? : List Char → Option (Char × Nat × List Char)
  | '\\' :: 'u' :: '\x7b' :: c :: cs => do
    let v ← Json.hexValue? c
    let (value, count, rest) ← braced? v 4 cs
    guard (value < 0x110000)
    return (Char.ofNat value, count, rest)
  | '\\' :: 'u' :: a :: b :: c :: d :: cs => do
    return (Char.ofNat (← Json.hex4? a b c d), 6, cs)
  | _ => none

/-- A name as it reads, its length as written, whether it has escapes, and
what follows. Nothing where an escape is no part of a name. -/
def name? : (limit : Nat) → List Char → Option (List Char × Nat × Bool × List Char)
  | 0, cs => some ([], 0, false, cs)
  | _ + 1, [] => some ([], 0, false, [])
  | limit + 1, c :: cs =>
    if c = '\\' then do
      let (d, count, rest) ← nameEscape? (c :: cs)
      guard (Text.isIdentifierPart d)
      let (name, more, _, rest) ← name? limit rest
      return (d :: name, count + more, true, rest)
    else if Text.isIdentifierPart c then do
      let (name, more, escaped, rest) ← name? limit cs
      return (c :: name, more + 1, escaped, rest)
    else some ([], 0, false, c :: cs)

/-- A name with a first character that may begin one. -/
def wholeName? (cs : List Char) : Option (String × Nat × Bool × List Char) := do
  let (name, count, escaped, rest) ← name? cs.length cs
  guard (name.head?.any Text.isIdentifierStart)
  return (String.ofList name, count, escaped, rest)

/-! ## Numbers -/

/-- Digits in which single separators may stand between two of them. -/
def separated (isDigit : Char → Bool) (cs : List Char) : Option (List Char × List Char) :=
  let text := cs.takeWhile fun c => isDigit c || c == '_'
  if sound false text then some (text, cs.drop text.length) else none
where
  /-- Whether each separator has a digit on either side. -/
  sound : (afterDigit : Bool) → List Char → Bool
    | afterDigit, [] => afterDigit
    | afterDigit, c :: cs => if c = '_' then afterDigit && sound false cs else sound true cs

/-- The exponent a text begins with, if it begins with one. -/
def exponent? : List Char → Option (List Char × List Char)
  | e :: cs =>
    if e = 'e' || e = 'E' then do
      let (sign, rest) := match cs with
        | '+' :: rest => (['+'], rest)
        | '-' :: rest => (['-'], rest)
        | rest => ([], rest)
      let (ds, rest) ← separated Char.isDigit rest
      return (e :: sign ++ ds, rest)
    else some ([], e :: cs)
  | [] => some ([], [])

/-- The fraction a text begins with, point included. -/
def fraction? : List Char → Option (List Char × List Char)
  | '.' :: cs =>
    if cs.head?.any Char.isDigit then do
      let (ds, rest) ← separated Char.isDigit cs
      return ('.' :: ds, rest)
    else some (['.'], cs)
  | cs => some ([], cs)

/-- Digits of a base after its mark, perhaps of a big integer. -/
def based? (isDigit : Char → Bool) (cs : List Char) : Option (List Char × Bool × List Char) := do
  let (ds, rest) ← separated isDigit cs
  match rest with
  | 'n' :: rest => return (ds ++ ['n'], true, rest)
  | rest => return (ds, false, rest)

/-- A number that begins with a digit or a point, whether it is a big
integer, and what follows. -/
def numeral? : List Char → Option (List Char × Bool × List Char)
  | '0' :: c :: cs =>
    if c = 'x' || c = 'X' then do
      let (ds, big, rest) ← based? (fun c => (Json.hexValue? c).isSome) cs
      return ('0' :: c :: ds, big, rest)
    else if c = 'o' || c = 'O' then do
      let (ds, big, rest) ← based? (fun c => (octalValue? c).isSome) cs
      return ('0' :: c :: ds, big, rest)
    else if c = 'b' || c = 'B' then do
      let (ds, big, rest) ← based? (fun c => c == '0' || c == '1') cs
      return ('0' :: c :: ds, big, rest)
    else if c.isDigit then
      let ds := (c :: cs).takeWhile Char.isDigit
      let rest := (c :: cs).dropWhile Char.isDigit
      if ds.all fun c => (octalValue? c).isSome then some ('0' :: ds, false, rest)
      else do
        let (fraction, rest) ← fraction? rest
        let (exponent, rest) ← exponent? rest
        return ('0' :: ds ++ fraction ++ exponent, false, rest)
    else if c = 'n' then some (['0', 'n'], true, cs)
    else if c = '_' then none
    else do
      let (fraction, rest) ← fraction? (c :: cs)
      let (exponent, rest) ← exponent? rest
      return ('0' :: fraction ++ exponent, false, rest)
  | '.' :: cs => do
    let (ds, rest) ← separated Char.isDigit cs
    let (exponent, rest) ← exponent? rest
    return ('.' :: ds ++ exponent, false, rest)
  | cs => do
    let (whole, rest) ← separated Char.isDigit cs
    match rest with
    | 'n' :: rest => return (whole ++ ['n'], true, rest)
    | rest =>
      let (fraction, rest) ← fraction? rest
      let (exponent, rest) ← exponent? rest
      return (whole ++ fraction ++ exponent, false, rest)

/-! ## Tokens -/

/-- Operators and brackets, a longer one before those it begins with. -/
def marks : List String :=
  [">>>=", "...", "===", "!==", "**=", "<<=", ">>=", ">>>", "&&=", "||=", "??=",
   "=>", "==", "!=", "<=", ">=", "&&", "||", "??", "?.", "++", "--", "+=", "-=", "*=", "/=",
   "%=", "&=", "|=", "^=", "<<", ">>", "**",
   "\x7b", "\x7d", "(", ")", "[", "]", ";", ",", "<", ">", "+", "-", "*", "/", "%", "&", "|",
   "^", "!", "~", "?", ":", "=", ".", "@"]

/-- The longest mark a text begins with. A question mark and a point
belong together unless a digit follows. -/
def mark? (cs : List Char) : Option (String × List Char) :=
  (marks.map fun m => (m, m.toList)).findSome? fun (m, word) =>
    match Text.after? word cs with
    | none => none
    | some rest => if m = "?." && rest.head?.any Char.isDigit then none else some (m, rest)

/-- A token, where it ends, and what follows it. -/
structure Lexeme where
  token : Token
  stop : Nat
  rest : List Char

/-- The token that a text begins with at a given place. -/
def lexeme (start : Nat) : List Char → Lexeme
  | [] => ⟨.finish, start, []⟩
  | c :: cs =>
    if c = '"' || c = '\'' then
      match closed? false c cs with
      | none => ⟨.invalid, start + 1, cs⟩
      | some (text, rest) =>
        match unescape false none text with
        | none => ⟨.invalid, start + 1, cs⟩
        | some units =>
          let (value, sound) := spelling units
          ⟨.string value (String.ofList text) sound, start + text.length + 2, rest⟩
    else if c = '`' then
      match piece? cs with
      | none => ⟨.invalid, start + 1, cs⟩
      | some (text, last, rest) =>
        ⟨.piece (String.ofList text) last, start + text.length + (if last then 2 else 3), rest⟩
    else if c.isDigit || (c = '.' && cs.head?.any Char.isDigit) then
      match numeral? (c :: cs) with
      | none => ⟨.invalid, start + 1, cs⟩
      | some (text, big, rest) =>
        if rest.head?.any fun d => Text.isIdentifierStart d || d.isDigit || d = '\\' then
          ⟨.invalid, start + 1, cs⟩
        else
          ⟨if big then .bigint (String.ofList text) else .number (String.ofList text),
            start + text.length, rest⟩
    else if c = '#' then
      match wholeName? cs with
      | some (name, count, _, rest) => ⟨.privateWord name, start + count + 1, rest⟩
      | none => ⟨.invalid, start + 1, cs⟩
    else match mark? (c :: cs) with
      | some (m, rest) => ⟨.mark m, start + m.length, rest⟩
      | none =>
        match wholeName? (c :: cs) with
        | some (name, count, escaped, rest) => ⟨.word name escaped, start + count, rest⟩
        | none => ⟨.invalid, start + 1, cs⟩

/-- The flags of a regular expression, each at most once. -/
def areFlags (cs : List Char) : Bool :=
  cs.all (fun c => "dgimsuvy".toList.contains c) && cs.eraseDups.length == cs.length

/-- The rest of a regular expression after its first slash: its text with
the closing slash, and what follows. -/
def regexBody? : (inClass : Bool) → List Char → Option (List Char × List Char)
  | _, [] => none
  | inClass, '\\' :: c :: cs =>
    if isLineBreak c then none
    else do
      let (text, rest) ← regexBody? inClass cs
      return ('\\' :: c :: text, rest)
  | inClass, c :: cs =>
    if isLineBreak c then none
    else if c = '/' && !inClass then some (['/'], cs)
    else do
      let (text, rest) ← regexBody? ((inClass || c = '[') && c != ']') cs
      return (c :: text, rest)

/-- The regular expression a text begins with. -/
def regexLexeme (start : Nat) : List Char → Lexeme
  | '/' :: cs =>
    match regexBody? false cs with
    | none => ⟨.invalid, start + 1, cs⟩
    | some (text, rest) =>
      let flags := rest.takeWhile Text.isIdentifierPart
      let rest := rest.drop flags.length
      if areFlags flags && rest.head? != some '\\' then
        let text := '/' :: text ++ flags
        ⟨.regex (String.ofList text), start + text.length, rest⟩
      else ⟨.invalid, start + 1, rest⟩
  | cs => ⟨.invalid, start, cs⟩

/-- The piece of a template that begins at a closing brace. -/
def pieceLexeme (start : Nat) : List Char → Lexeme
  | '\x7d' :: cs =>
    match piece? cs with
    | none => ⟨.invalid, start + 1, cs⟩
    | some (text, last, rest) =>
      ⟨.piece (String.ofList text) last, start + text.length + (if last then 2 else 3), rest⟩
  | cs => ⟨.invalid, start, cs⟩

end DepBundle.Syntax
