import DepBundle.Print.Function
/-!
# Printing — statements

How each statement is written, on lines of its own. A statement that
another one ends with stands behind it on the same line.
-/

namespace DepBundle.Print

open Syntax

/-- Writes the statements of a block between braces. -/
def block (p : Piece) : Printing Unit := p.2 { isPart := true }

/-- Whether a tree is a block. -/
def isBlock (node : Node) : Bool :=
  match node.shape with
  | .block _ => true
  | _ => false

/-- Writes the statement that another one ends with. -/
def tail (p : Piece) : Printing Unit :=
  match p.shape with
  | .block _ => do
    Print.space
    block p
    Print.newline
  | .empty => Print.finish
  | _ => do
    modify fun p => { p with asSpace := true }
    p.whole

/-- Whether a statement ends with an `if` that has no `else`, so that one
behind it would be taken for its own. -/
def takesElse (node : Node) : Bool :=
  node.para fun _ shape =>
    match shape with
    | .choose _ _ no => (no.map (·.2)).getD true
    | .forLoop _ _ _ body | .forIn _ _ body | .forOf _ _ _ body | .whileLoop _ body
    | .withObject _ body | .labeled _ body => body.2
    | _ => false

/-- The head of a statement, in parentheses. -/
def head (word : String) (p : Piece) : Printing Unit := do
  Print.text (word ++ " (")
  p.whole
  Print.text ")"

/-- Ends a line unless more of the same statement follows. -/
def newlineUnless (goesOn : Bool) : Printing Unit := if goesOn then Print.space else Print.newline

/-- The first branch of an `if` statement. -/
def branch (yes : Piece) (hasElse : Bool) : Printing Unit := do
  if isBlock yes.1 then
    Print.space
    block yes
    newlineUnless hasElse
  else if takesElse yes.1 then
    Print.space
    braced false yes.whole
    newlineUnless hasElse
  else
    tail yes
    if hasElse then Print.indent

/-- A loop head's first part. -/
def loopStart (p : Piece) : Printing Unit := p.2 { noIn := true, isPart := true }

/-- Writes a word with the label behind it that it may have. -/
def jump (word : String) (label : Option Piece) : Printing Unit := do
  Print.text word
  match label with
  | some label =>
    Print.space
    label.whole
  | none => pure ()
  Print.finish

/-- How a statement that chooses or repeats is written. -/
def control? (span : Span) : Shape Piece → Option Printed
  | .choose test yes no => some fun slot => onLine span slot do
    head "if" test
    branch yes no.isSome
    match no with
    | none => pure ()
    | some no =>
      Print.text "else"
      match no.shape with
      | .choose .. =>
        Print.space
        no.2 { isPart := true }
      | _ => tail no
  | .forLoop start test update body => some fun slot => onLine span slot do
    Print.text "for ("
    Print.inTurn (start.toList.map loopStart)
    Print.text ";"
    Print.inTurn (test.toList.map fun p => do Print.space; p.whole)
    Print.text ";"
    Print.inTurn (update.toList.map fun p => do Print.space; p.whole)
    Print.text ")"
    tail body
  | .forIn target object body => some fun slot => onLine span slot do
    Print.text "for ("
    target.2 { isPart := true }
    Print.text " in "
    object.whole
    Print.text ")"
    tail body
  | .forOf isAwait target items body => some fun slot => onLine span slot do
    Print.text (if isAwait then "for await (" else "for (")
    target.2 { isPart := true }
    Print.text " of "
    items.item
    Print.text ")"
    tail body
  | .whileLoop test body => some fun slot => onLine span slot do
    head "while" test
    tail body
  | .doWhile body test => some fun slot => onLine span slot do
    Print.text "do"
    if isBlock body.1 then
      Print.space
      block body
      Print.space
    else
      Print.newline
      Print.deeper body.whole
      Print.indent
    head "while" test
    Print.finish
  | .switch subject cases => some fun slot => onLine span slot do
    head "switch" subject
    Print.space
    braced cases.isEmpty (Print.inTurn (cases.map Piece.whole))
    Print.newline
  | .case test items => some fun slot => onLine span slot do
    match test with
    | some test =>
      Print.text "case "
      test.whole
    | none => Print.text "default"
    Print.text ":"
    match items with
    | [only] => tail only
    | items =>
      Print.newline
      Print.deeper (Print.inTurn (items.map Piece.whole))
  | .attempt body caught finalizer => some fun slot => onLine span slot do
    Print.text "try "
    block body
    Print.inTurn (caught.toList.map Piece.whole)
    match finalizer with
    | some finalizer =>
      Print.text " finally "
      block finalizer
    | none => pure ()
    Print.newline
  | .handler target body => some fun _ => do
    Print.text " catch "
    match target with
    | some target =>
      Print.text "("
      target.whole
      Print.text ") "
    | none => pure ()
    block body
  | .labeled label body => some fun slot => onLine span slot do
    label.whole
    Print.text ":"
    tail body
  | .withObject object body => some fun slot => onLine span slot do
    Print.text "with("
    object.whole
    Print.text ")"
    tail body
  | _ => none

/-- How any other statement is written. -/
def statement? (span : Span) : Shape Piece → Option Printed
  | .directive text => some fun slot => onLine span slot do
    Print.text (directiveText text)
    Print.finish
  | .empty => some fun slot => onLine span slot Print.finish
  | .expression value => some fun slot => onLine span slot do
    let n ← Print.position
    modify fun p => { p with statementAt := some n }
    value.whole
    Print.finish
  | .block items => some fun slot => declared span slot
    (braced items.isEmpty (Print.inTurn (items.map Piece.whole)))
  | .declare kind _ declarators => some fun slot => onLine span slot do
    Print.word kind.text
    Print.space
    Print.separated (declarators.map fun p => p.2 { noIn := slot.noIn })
    if !slot.isPart then Print.finish
  | .declarator target value => some fun slot => do
    target.whole
    match value with
    | some value =>
      Print.text " = "
      value.2 { rank := .comma, noIn := slot.noIn }
    | none => pure ()
  | .continueTo label => some fun slot => onLine span slot (jump "continue" label)
  | .breakTo label => some fun slot => onLine span slot (jump "break" label)
  | .returns value => some fun slot => onLine span slot (jump "return" value)
  | .throws value => some fun slot => onLine span slot (jump "throw" (some value))
  | .debugger => some fun slot => onLine span slot do
    Print.text "debugger"
    Print.finish
  | _ => none

end DepBundle.Print
