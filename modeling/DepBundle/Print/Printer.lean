import DepBundle.Print.Remark
import DepBundle.Text.Identifier
/-!
# Printing — the printer

What is being written, and what depends on how far it has come: whether an
expression begins a statement, and which operator stands right before.
-/

namespace DepBundle.Print

/-- What has been written and what it goes on with. -/
structure Printer where
  out : String := ""
  /-- How deep lines are indented. -/
  depth : Nat := 0
  /-- Whether a space stands in for the next indent. -/
  asSpace : Bool := false
  /-- Where the last statement that is an expression began. -/
  statementAt : Option Nat := none
  /-- Where the last body of an arrow function began that is an expression. -/
  arrowAt : Option Nat := none
  /-- Where the last value exported by default began. -/
  defaultAt : Option Nat := none
  /-- The last operator and where it ended. -/
  operator : String × Nat := ("", 0)
  /-- Where the last number ended that a dot would continue. -/
  numberAt : Option Nat := none
  /-- The comments still to be written. -/
  remarks : List Remark := []

/-- A step of the printer. -/
abbrev Printing := StateM Printer

/-- How far the printer has come. -/
def position : Printing Nat := return (← get).out.utf8ByteSize

/-- Writes a text. -/
def text (s : String) : Printing Unit := modify fun p => { p with out := p.out ++ s }

/-- Writes a space. -/
def space : Printing Unit := text " "

/-- Ends a line. -/
def newline : Printing Unit := text "\n"

/-- Indents a line, or keeps to the line where a space stands in. -/
def indent : Printing Unit := modify fun p =>
  if p.asSpace then { p with out := p.out ++ " ", asSpace := false }
  else { p with out := p.out ++ String.ofList (List.replicate p.depth '\t') }

/-- Indents the lines that a step writes by one level more. -/
def deeper (step : Printing Unit) : Printing Unit := do
  modify fun p => { p with depth := p.depth + 1 }
  step
  modify fun p => { p with depth := p.depth - 1 }

/-- Ends a statement. -/
def finish : Printing Unit := text ";\n"

/-- Writes a step between parentheses where they are needed. -/
def wrapped (needed : Bool) (step : Printing Unit) : Printing Unit := do
  if needed then text "("
  step
  if needed then text ")"

/-- Writes a word, apart from a word right before it. -/
def word (w : String) : Printing Unit := modify fun p =>
  let apart := !p.out.isEmpty && Text.isIdentifierPart p.out.back
  { p with out := p.out ++ (if apart then " " ++ w else w) }

/-- Whether an operator right behind another would be read as part of it. -/
def clashes (before op : String) : Bool :=
  ((before == "+") && (op == "+" || op == "++")) || ((before == "-") && (op == "-" || op == "--"))
    || (before == "--" && op == ">")

/-- Writes an operator. -/
def operator (op : String) : Printing Unit := modify fun p =>
  let apart := p.operator.2 = p.out.utf8ByteSize && clashes p.operator.1 op
  let out := p.out ++ (if apart then " " ++ op else op)
  { p with out, operator := (op, out.utf8ByteSize) }

/-- Writes steps with commas between them. -/
def separated : List (Printing Unit) → Printing Unit
  | [] => pure ()
  | [step] => step
  | step :: steps => do
    step
    text ", "
    separated steps

/-- Writes steps one after another. -/
def inTurn : List (Printing Unit) → Printing Unit
  | [] => pure ()
  | step :: steps => do
    step
    inTurn steps

/-! ## Comments -/

/-- The comments of what begins at a place, which then are no longer to be
written. -/
def takeRemarks (place : Nat) : Printing (List Remark) := modifyGet fun p =>
  (p.remarks.filter (·.place = place),
    { p with remarks := p.remarks.filter (!·.place = place) })

/-- Whether comments of what begins at a place are still to be written. -/
def hasRemarks (place : Nat) : Printing Bool :=
  return (← get).remarks.any (·.place = place)

/-- The lines of a comment, with the indent of where it is written. -/
def lines : List (List Char) → Printing Unit
  | [] => pure ()
  | [line] => text (String.ofList line)
  | line :: more => do
    text (String.ofList line)
    newline
    indent
    lines more

/-- A text cut at its line breaks. -/
def cutLines : List Char → List (List Char)
  | [] => [[]]
  | c :: cs =>
    if Syntax.isLineBreak c then [] :: cutLines cs
    else match cutLines cs with
      | line :: more => (c :: line) :: more
      | [] => [[c]]

/-- Writes a comment. -/
def comment (c : Syntax.Comment) : Printing Unit :=
  if c.isBlock then
    match cutLines c.text.toList with
    | first :: more => lines (first :: more.map (·.dropWhile Text.isWhiteSpace))
    | [] => pure ()
  else text c.text

/-- Writes comments where a statement or a member is to follow. -/
def remarksBefore : (isFirst : Bool) → List Remark → Printing Unit
  | _, [] => pure ()
  | isFirst, r :: rs => do
    let out := (← get).out
    if isFirst then
      if r.afterBreak then
        if out.isEmpty || out.back == '\n' then indent
        else if out.back != '\t' then
          newline
          indent
      else indent
    else if r.afterBreak then
      newline
      indent
    comment r.comment
    if rs.isEmpty then
      if !r.comment.isBlock || r.beforeBreak then newline
      else modify fun p => { p with asSpace := true }
    remarksBefore false rs

/-- Writes the comments of a statement or a member that begins at a place. -/
def leading (place : Nat) : Printing Unit := do
  remarksBefore true (← takeRemarks place)

/-- Writes comments on lines of their own, and says whether there are any. -/
def remarksAlone (place : Nat) : Printing Bool := do
  let remarks ← takeRemarks place
  inTurn (remarks.map fun r => do
    newline
    indent
    comment r.comment)
  if remarks.isEmpty then return false
  newline
  return true

end DepBundle.Print
