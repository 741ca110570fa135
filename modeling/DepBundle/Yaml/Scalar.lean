import DepBundle.Yaml.Basic
import DepBundle.Json.Token
/-!
# YAML — scalars

Scalars without quotes, in quotes, and as blocks of lines. Lines of a
scalar are folded: the end of a line counts as a space, and each empty line
after it as the end of a line.
-/

namespace DepBundle.Yaml

/-- What line ends between two parts of a scalar count as. -/
def folded (lineEnds : Nat) : List Char :=
  if lineEnds = 1 then [' '] else List.replicate (lineEnds - 1) '\n'

/-- The blanks from here on, how many line ends are among them, and the
place after them. -/
def blanks : (cs : List Char) → Place → List Char × Nat × Place
  | c :: cs, p =>
    if isBlank c then
      let (more, lineEnds, p) := blanks cs p.after
      if c = '\n' then (more, lineEnds + 1, p)
      else (c :: more, lineEnds, p)
    else ([], 0, p)
  | [], p => ([], 0, p)

/-- What blanks between two parts of a scalar count as. -/
def between (spaces : List Char) (lineEnds : Nat) : List Char :=
  if lineEnds = 0 then spaces else folded lineEnds

/-! ## Scalars without quotes -/

/-- Characters with a meaning inside brackets. -/
def isFlowIndicator (c : Char) : Bool := c == ',' || c == '[' || c == ']' || c == '\x7b' || c == '\x7d'

/-- Whether a scalar without quotes ends before these characters. -/
def plainEnds (inFlow : Bool) : List Char → Bool
  | [] => true
  | c :: rest =>
    isBlank c || c == ':' && (blankNext rest || inFlow && rest.head?.any isFlowIndicator)
      || inFlow && isFlowIndicator c

/-- Whether a scalar without quotes may begin with these characters. -/
def plainBegins (inFlow : Bool) : List Char → Bool
  | [] => false
  | c :: rest =>
    if c == '-' then !blankNext rest
    else if c == '?' || c == ':' then !inFlow && !blankNext rest
    else !isBlank c && !isFlowIndicator c
      && !(['#', '&', '*', '!', '|', '>', '\'', '"', '%', '@', '\x60'].contains c)

/-- The rest of a scalar without quotes. It goes on over lines that are
indented by `least` or more; a comment ends it. -/
def plainRest (inFlow : Bool) (least : Nat) : Nat → Read (List Char)
  | 0 => failure
  | n + 1 => do
    let p ← get
    if !plainEnds inFlow p.rest then
      modify Place.after
      return p.rest.take 1 ++ (← plainRest inFlow least n)
    else
      let (spaces, lineEnds, after) := blanks p.rest p
      let stops := after.rest.head? == some '#' || plainEnds inFlow after.rest
        || lineEnds > 0 && (after.isEnd || !inFlow && after.column < least)
      if after.rest.length == p.rest.length || stops then return []
      else
        set after
        return between spaces lineEnds ++ (← plainRest inFlow least n)

/-! ## Scalars in quotes -/

/-- The character that a letter after a backslash stands for. -/
def escaped? : Char → Option Char
  | '0' => some '\x00'
  | 'a' => some '\x07'
  | 'b' => some '\x08'
  | 't' | '\t' => some '\t'
  | 'n' => some '\n'
  | 'v' => some '\x0b'
  | 'f' => some '\x0c'
  | 'r' => some '\r'
  | 'e' => some '\x1b'
  | ' ' => some ' '
  | '"' => some '"'
  | '/' => some '/'
  | '\\' => some '\\'
  | 'N' => some '\u0085'
  | '_' => some '\u00a0'
  | 'L' => some '\u2028'
  | 'P' => some '\u2029'
  | _ => none

/-- How many digits follow a letter after a backslash. -/
def digitCount? : Char → Option Nat
  | 'x' => some 2
  | 'u' => some 4
  | 'U' => some 8
  | _ => none

/-- A number of hexadecimal digits as the character they stand for. -/
def hexChar (count : Nat) : Read Char := do
  let p ← get
  let digits := p.rest.take count
  guard (digits.length == count)
  let values ← digits.mapM fun c => (Json.hexValue? c : Option Nat)
  let code := values.foldl (fun n v => n * 16 + v) 0
  guard (Nat.isValidChar code)
  takeAll digits
  return Char.ofNat code

/-- The rest of a scalar in quotes, up to the quote that closes it. -/
def quotedRest (quote : Char) : Nat → Read (List Char)
  | 0 => failure
  | n + 1 => do
    let p ← get
    match p.rest with
    | [] => failure
    | c :: rest =>
      if p.hasMarker '-' || p.hasMarker '.' then failure
      else if c = quote then
        modify Place.after
        if quote = '\'' && rest.head? == some '\'' then
          modify Place.after
          return '\'' :: (← quotedRest quote n)
        else return []
      else if quote = '"' && c = '\\' then
        modify Place.after
        match rest with
        | [] => failure
        | '\n' :: _ =>
          let p ← get
          let (_, lineEnds, after) := blanks p.rest p
          set after
          return List.replicate (lineEnds - 1) '\n' ++ (← quotedRest quote n)
        | e :: _ =>
          modify Place.after
          match digitCount? e with
          | some count =>
            let c ← hexChar count
            return c :: (← quotedRest quote n)
          | none =>
            let c ← (escaped? e : Option Char)
            return c :: (← quotedRest quote n)
      else if isBlank c then
        let (spaces, lineEnds, after) := blanks p.rest p
        set after
        return between spaces lineEnds ++ (← quotedRest quote n)
      else
        modify Place.after
        return c :: (← quotedRest quote n)

/-! ## Blocks of lines -/

/-- What becomes of the line ends after the last line of a block. -/
inductive Chomping where
  | strip
  | clip
  | keep
deriving DecidableEq

/-- The indicators after `|` or `>`. -/
def blockHeader : (n : Nat) → Chomping → Option Nat → Read (Chomping × Option Nat)
  | 0, chomping, indent => return (chomping, indent)
  | n + 1, chomping, indent => do
    match ← peek? with
    | some '+' => modify Place.after; blockHeader n .keep indent
    | some '-' => modify Place.after; blockHeader n .strip indent
    | some c =>
      if '1' ≤ c && c ≤ '9' then
        modify Place.after
        blockHeader n chomping (some (c.toNat - 48))
      else return (chomping, indent)
    | none => return (chomping, indent)

/-- The lines from here on, without their ends. -/
def linesOf : List Char → List (List Char)
  | [] => [[]]
  | c :: cs =>
    if c = '\n' then [] :: linesOf cs
    else match linesOf cs with
      | [] => [[c]]
      | line :: lines => (c :: line) :: lines

/-- How many spaces a line begins with. -/
def indentOf (line : List Char) : Nat := (line.takeWhile (· == ' ')).length

/-- Whether a line has nothing but spaces. -/
def isEmptyLine (line : List Char) : Bool := line.all (· == ' ')

/-- The lines of a block, and how many lines it takes up. Lines below the
indentation end it, empty ones aside. -/
def blockLines (indent : Nat) (lines : List (List Char)) : List (List Char) :=
  (lines.takeWhile fun line =>
    indent ≤ indentOf line || isEmptyLine line).map (·.drop indent)

/-- A block of lines as one text, its lines kept or folded. Lines that begin
with a blank are not folded. -/
def blockText (isFolded : Bool) : (lines : List (List Char)) → (started blankLine : Bool) →
    (lineEnds : Nat) → List Char
  | [], _, _, _ => []
  | line :: lines, started, blankLine, lineEnds =>
    if line.isEmpty then blockText isFolded lines started blankLine (lineEnds + 1)
    else
      let begins := line.head?.any fun c => c == ' ' || c == '\t'
      let gap :=
        if !started then List.replicate lineEnds '\n'
        else if isFolded && !blankLine && !begins then folded lineEnds
        else List.replicate lineEnds '\n'
      gap ++ line ++ blockText isFolded lines true begins 1

/-- A block of lines that stands below something indented by less than
`least`. -/
def block (isFolded : Bool) (least : Nat) : Read String := do
  let (chomping, explicit) ← blockHeader 2 .clip none
  let p ← get
  let header := p.rest.takeWhile (· != '\n')
  let afterBlanks := header.dropWhile fun c => c == ' ' || c == '\t'
  guard (afterBlanks.isEmpty || afterBlanks.head? == some '#' && afterBlanks.length < header.length)
  let lines := linesOf ((p.rest.drop header.length).drop 1)
  let isFinal := (p.rest.drop header.length).isEmpty
  let indent := match explicit with
    | some n => (least - 1) + n
    | none =>
      let first := (lines.find? (!isEmptyLine ·)).map indentOf
      max (max (first.getD least) least) 1
  let body := if isFinal then [] else blockLines indent lines
  let count := if isFinal then 0 else (lines.takeWhile fun line =>
    indent ≤ indentOf line || isEmptyLine line).length
  let ended := count < lines.length
  let trailing := (body.reverse.takeWhile List.isEmpty).length
  let text := blockText isFolded body false false 0
  let lineEnds := if body.length = trailing then trailing else trailing + 1
  let lineEnds := if ended then lineEnds else lineEnds - 1
  let tail := match chomping with
    | .strip => 0
    | .clip => if body.length = trailing then 0 else min lineEnds 1
    | .keep => lineEnds
  set { p with
    rest := "\n".toList.intercalate (lines.drop count)
    line := p.line + 1 + count
    column := 0 }
  return String.ofList (text ++ List.replicate tail '\n')

end DepBundle.Yaml
