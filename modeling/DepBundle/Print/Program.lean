import DepBundle.Print.Clause
import DepBundle.Syntax.Program
/-!
# Printing — programs

The text of a program. What belongs to types or markup has no text of its
own: it is taken out before a program is written.
-/

namespace DepBundle.Print

open Syntax

/-- How a tree is written, by how its subtrees are. -/
def printed (span : Span) (shape : Shape Piece) : Printed :=
  let ways := [literal? shape, selection? span shape, operation? shape, pattern? shape,
    function? span shape, class? span shape, control? span shape, statement? span shape,
    clause? span shape]
  (ways.firstM id).getD fun _ => pure ()

/-- Writes the statements of a program and the comments behind them. -/
def programBody (tree : Node) : Printing Unit :=
  match tree.shape with
  | .program items => do
    statements (items.map fun n => (n, n.para printed))
    let remarks ← Print.takeRemarks tree.span.stop
    Print.remarksBefore true remarks
  | _ => pure ()

/-- The first line of a text that only says what runs it. -/
def runnerLine (source : String) : String :=
  match source.toList with
  | '#' :: '!' :: rest => "#!" ++ String.ofList (rest.takeWhile (!isLineBreak ·)) ++ "\n"
  | _ => ""

/-- A tree written out, with the comments of the source it comes from. -/
def ofTree (source : String) (comments : List Comment) (tree : Node) : String :=
  ((programBody tree).run
    { out := runnerLine source, remarks := Remark.kept source comments }).2.out

end DepBundle.Print
