import DepBundle.Print.Statement
/-!
# Printing — imports and exports

How the clauses that tie a module to others are written, each on a line of
its own.
-/

namespace DepBundle.Print

open Syntax

/-- Whether two names of a clause are spelled alike. -/
def sameName (a b : Node) : Bool :=
  match a.shape, b.shape with
  | .word v, .binding w | .word v, .word w | .reference v, .word w | .reference v, .reference w
  | .word v, .reference w => v = w
  | .string v, .string w => v = w
  | _, _ => false

/-- Writes a name of a clause and the one it goes by elsewhere. -/
def renamed (first : Piece) (second : Option Piece) : Printing Unit := do
  first.whole
  match second with
  | some second =>
    if !sameName first.1 second.1 then
      Print.text " as "
      second.whole
  | none => pure ()

/-- Writes the names of a clause between braces. -/
def names (items : List Piece) : Printing Unit := do
  Print.text "\x7b"
  if !items.isEmpty then
    Print.space
    Print.separated (items.map Piece.whole)
    Print.space
  Print.text "\x7d"

/-- Whether a part of an import clause is a name in braces. -/
def isNamed (p : Piece) : Bool :=
  match p.shape with
  | .importNamed .. => true
  | _ => false

/-- Writes an import clause. -/
def importClause (items : List Piece) : Printing Unit := do
  let named := items.filter isNamed
  let whole := items.filter (!isNamed ·)
  Print.separated (whole.map Piece.whole
    ++ if named.isEmpty && !whole.isEmpty then [] else [names named])

/-- Writes the module a clause names, and the end of the clause. -/
def ofSource (source : Piece) (stated : Option Piece) : Printing Unit := do
  source.whole
  Print.inTurn (stated.toList.map Piece.whole)
  Print.finish

/-- Whether a function or class is declared and is not a value. -/
def isDeclaration (node : Node) : Bool :=
  match node.shape with
  | .function flags .. => flags.role == .declaration
  | .classDef flags .. => flags.isDeclaration
  | _ => false

/-- How imports and exports are written. -/
def clause? (span : Span) : Shape Piece → Option Printed
  | .importDecl _ hasClause items source stated => some fun slot => onLine span slot do
    Print.text "import "
    if hasClause then
      importClause items
      Print.text " from "
    ofSource source stated
  | .importDefault target => some fun _ => target.whole
  | .importAll target => some fun _ => do
    Print.text "* as "
    target.whole
  | .importNamed _ imported target => some fun _ =>
    match imported with
    | some imported => renamed imported (some target)
    | none => target.whole
  | .exportAll _ exported source stated => some fun slot => onLine span slot do
    Print.text "export *"
    match exported with
    | some exported =>
      Print.text " as "
      exported.whole
    | none => pure ()
    Print.text " from "
    ofSource source stated
  | .exportFrom _ items source stated => some fun slot => onLine span slot do
    Print.text "export "
    names items
    Print.text " from "
    ofSource source stated
  | .exportNames _ items => some fun slot => onLine span slot do
    Print.text "export "
    names items
    Print.finish
  | .exportNamed _ inner exported => some fun _ => renamed inner exported
  | .exportDecl declaration => some fun slot => onLine span slot do
    Print.text "export "
    declaration.2 { isPart := true }
    match declaration.shape with
    | .declare .. => Print.finish
    | _ => Print.newline
  | .exportDefault value => some fun slot => onLine span slot do
    Print.text "export default "
    if isDeclaration value.1 then
      value.2 { isPart := true }
      Print.newline
    else
      let n ← Print.position
      modify fun p => { p with defaultAt := some n }
      value.item
      Print.finish
  | .attributes keyword items => some fun _ => do
    Print.text (" " ++ keyword ++ " ")
    names items
  | _ => none

end DepBundle.Print
