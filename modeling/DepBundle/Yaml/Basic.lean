/-!
# YAML — values and places

What a YAML text writes: scalars as they are spelled, sequences, and
mappings whose keys may be anything. A text is read with an eye on lines
and columns, since indentation says what belongs to what.
-/

namespace DepBundle

/-- A YAML value. -/
inductive Yaml where
  /-- A scalar, and whether it is written without quotes. -/
  | scalar (text : String) (isPlain : Bool)
  | sequence (items : List Yaml)
  | mapping (members : List (Yaml × Yaml))
  /-- An alias of a value that it is itself a part of. -/
  | circular
deriving Inhabited

namespace Yaml

/-- The value of nothing. -/
def nothing : Yaml := scalar "" true

/-- How far reading has come. -/
structure Place where
  rest : List Char
  line : Nat := 0
  column : Nat := 0
  /-- The values that have names, latest first; `none` while being read. -/
  anchors : List (String × Option Yaml) := []

/-- A step of reading. -/
abbrev Read := StateT Place Option

/-- A blank, or the end of a line. -/
def isBlank (c : Char) : Bool := c == ' ' || c == '\t' || c == '\n'

/-- Whether the text goes on with a blank or not at all. -/
def blankNext : List Char → Bool
  | [] => true
  | c :: _ => isBlank c

/-- The place after a character. -/
def Place.after (p : Place) : Place :=
  match p.rest with
  | [] => p
  | '\n' :: rest => { p with rest, line := p.line + 1, column := 0 }
  | _ :: rest => { p with rest, column := p.column + 1 }

/-- The place after the blanks, line ends and comments from here on. A tab
may not stand before the first thing on a line, except inside brackets;
`fresh` says whether that is still to come. -/
def Place.afterGap (inFlow : Bool) : (cs : List Char) → (fresh comment : Bool) → Place → Place
  | [], _, _, p => { p with rest := [] }
  | c :: cs, fresh, comment, p =>
    if c = '\n' then
      afterGap inFlow cs true false { p with line := p.line + 1, column := 0 }
    else if comment || c = ' ' || c = '\t' && (inFlow || !fresh) then
      afterGap inFlow cs fresh comment { p with column := p.column + 1 }
    else if c = '#' then afterGap inFlow cs fresh true { p with column := p.column + 1 }
    else { p with rest := c :: cs }

/-- Goes past blanks, line ends and comments. -/
def skipGap (inFlow : Bool) : Read Unit :=
  modify fun p => p.afterGap inFlow p.rest (p.column == 0) false

/-- The next character. -/
def peek? : Read (Option Char) := do return (← get).rest.head?

/-- Takes a character that has to come next. -/
def take (c : Char) : Read Unit := do
  guard ((← peek?) == some c)
  modify Place.after

/-- Takes as many characters as there are in a list. -/
def takeAll : List Char → Read Unit
  | [] => return ()
  | c :: cs => do take c; takeAll cs

/-- Whether a line with three of some character, and nothing more, begins
here. -/
def Place.hasMarker (p : Place) (c : Char) : Bool :=
  p.column == 0 && p.rest.take 3 == [c, c, c] && blankNext (p.rest.drop 3)

/-- Whether the document ends here. -/
def Place.isEnd (p : Place) : Bool := p.rest.isEmpty || p.hasMarker '-' || p.hasMarker '.'

/-- Whether an indicator stands here, followed by a blank. -/
def Place.hasIndicator (p : Place) (c : Char) : Bool :=
  match p.rest with
  | c' :: rest => c' == c && blankNext rest
  | [] => false

end Yaml

end DepBundle
