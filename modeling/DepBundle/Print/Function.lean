import DepBundle.Print.Expression
/-!
# Printing — functions and classes

How functions and classes are written, from the words before their names
to their bodies. Each member of a class takes a line of its own.
-/

namespace DepBundle.Print

open Syntax

/-- Writes lines between braces; without any, the braces stand together. -/
def braced (isEmpty : Bool) (lines : Printing Unit) : Printing Unit := do
  Print.text "\x7b"
  if isEmpty then lines
  else
    Print.newline
    Print.deeper lines
    Print.indent
  Print.text "\x7d"

/-- Writes a statement behind its comments, on a line of its own where it
is not part of another. -/
def onLine (span : Span) (slot : Slot) (step : Printing Unit) : Printing Unit := do
  if slot.isPart then step
  else
    Print.leading span.start
    Print.indent
    step

/-- Writes a declaration that needs no semicolon behind it. -/
def declared (span : Span) (slot : Slot) (step : Printing Unit) : Printing Unit :=
  onLine span slot do
    step
    if !slot.isPart then Print.newline

/-- The text of a statement that is a mere string. -/
def mereString? (node : Node) : Option String :=
  match node.shape with
  | .expression value =>
    match (bare value).shape with
    | .string value => some value
    | _ => none
  | _ => none

/-- Writes statements at the head of which strings would be directives. One
that is not a directive is put in parentheses. -/
def statements : List Piece → Printing Unit
  | [] => pure ()
  | items@(first :: rest) => do
    match mereString? first.1 with
    | some value =>
      Print.leading first.start
      Print.indent
      Print.text ("(" ++ stringText value ++ ")")
      Print.finish
      Print.inTurn (rest.map Piece.whole)
    | none => Print.inTurn (items.map Piece.whole)

/-- The words before the parameters of a method. -/
def methodWords (flags : MethodFlags) (value : Node) : Printing Unit := do
  if flags.isStatic then Print.text "static "
  match flags.role with
  | .getter => Print.text "get "
  | .setter => Print.text "set "
  | .constructor | .plain => pure ()
  match value.shape with
  | .function own .. =>
    if own.isAsync then Print.text "async "
    if own.isGenerator then Print.text "*"
  | _ => pure ()

/-- How the parts of a function are written. -/
def function? (span : Span) : Shape Piece → Option Printed
  | .params items => some fun _ => do
    Print.text "("
    Print.separated (items.map Piece.whole)
    Print.text ")"
  | .param _ decorated target => some fun _ => do
    decorators decorated
    target.whole
  | .body items => some fun _ => do
    let remarks ← if span.stop = 0 then pure [] else Print.takeRemarks (span.stop - 1)
    let isEmpty := items.isEmpty && remarks.all fun r => !r.afterBreak && !r.beforeBreak
    braced isEmpty do
      statements items
      Print.remarksBefore true remarks
  | .function flags name _ params _ body => some fun slot => do
    let rest : Printing Unit := do
      params.whole
      match body with
      | some body =>
        Print.space
        body.whole
      | none => Print.text ";"
    let whole : Printing Unit := do
      if flags.isAsync then Print.word "async "
      Print.word "function"
      if flags.isGenerator then Print.text "* "
      Print.inTurn (name.toList.map Piece.whole)
      rest
    match flags.role with
    | .method => rest
    | .expression => Print.wrapped (← beginsStatement) whole
    | .declaration => declared span slot whole
  | .arrow isAsync _ params _ body => some fun slot =>
    Print.wrapped (Rank.assign ≤ slot.rank) do
      if isAsync then Print.word "async "
      params.whole
      Print.text " => "
      match body.shape with
      | .body _ => body.whole
      | _ =>
        let n ← Print.position
        modify fun p => { p with arrowAt := some n }
        body.2 { slot with rank := .comma }
  | _ => none

/-- How a class and its members are written. -/
def class? (span : Span) : Shape Piece → Option Printed
  | .classDef flags decorated name _ parent _ members => some fun slot => do
    let whole : Printing Unit := do
      decorators decorated
      Print.word "class"
      match name with
      | some name =>
        Print.space
        name.whole
      | none => pure ()
      match parent with
      | some parent =>
        Print.text " extends "
        parent.2 { rank := .trailing }
      | none => pure ()
      Print.space
      braced members.isEmpty (Print.inTurn (members.map Piece.whole))
    if flags.isDeclaration then declared span slot whole
    else Print.wrapped (← beginsStatement) whole
  | .method flags decorated key value => some fun slot => do
    let whole : Printing Unit := do
      decorators decorated
      methodWords flags value.1
      writeKey flags.computed key
      value.whole
    if slot.isPart then whole
    else declared span slot whole
  | .field flags decorated key _ value => some fun slot => onLine span slot do
    decorators decorated
    if flags.isStatic then Print.text "static "
    if flags.isAccessor then Print.text "accessor "
    writeKey flags.computed key
    match value with
    | some value =>
      Print.text " = "
      value.item
    | none => pure ()
    Print.finish
  | .staticBlock items => some fun slot => declared span slot do
    Print.text "static "
    braced items.isEmpty (Print.inTurn (items.map Piece.whole))
  | _ => none

end DepBundle.Print
