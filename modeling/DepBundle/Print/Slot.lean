import DepBundle.Print.Printer
import DepBundle.Syntax.Node
/-!
# Printing — where a tree is written

An expression is put in parentheses where it binds no tighter than its slot
demands. `Printed` is how a tree is written, in whatever slot.
-/

namespace DepBundle.Print

/-- How tight an operation binds, from a comma on up to a call. -/
inductive Rank where
  | lowest
  | comma
  | yield
  | assign
  | conditional
  | nullish
  | or
  | and
  | bitOr
  | bitXor
  | bitAnd
  | equality
  | comparison
  | shift
  | sum
  | product
  | power
  /-- An operator before its operand. -/
  | leading
  /-- An operator behind its operand. -/
  | trailing
  | new
  | call
deriving DecidableEq, Repr

namespace Rank

/-- The rank as a number. -/
def height : Rank → Nat
  | lowest => 0
  | comma => 1
  | yield => 2
  | assign => 3
  | conditional => 4
  | nullish => 5
  | or => 6
  | and => 7
  | bitOr => 8
  | bitXor => 9
  | bitAnd => 10
  | equality => 11
  | comparison => 12
  | shift => 13
  | sum => 14
  | product => 15
  | power => 16
  | leading => 17
  | trailing => 18
  | new => 19
  | call => 20

instance : LE Rank := ⟨fun a b => a.height ≤ b.height⟩

instance (a b : Rank) : Decidable (a ≤ b) := inferInstanceAs (Decidable (a.height ≤ b.height))

/-- The rank of an operator between two operands. -/
def ofOperator : String → Rank
  | "??" => nullish
  | "||" => or
  | "&&" => and
  | "|" => bitOr
  | "^" => bitXor
  | "&" => bitAnd
  | "==" | "!=" | "===" | "!==" => equality
  | "<" | ">" | "<=" | ">=" | "in" | "instanceof" => comparison
  | "<<" | ">>" | ">>>" => shift
  | "+" | "-" => sum
  | "*" | "/" | "%" => product
  | "**" => power
  | _ => lowest

/-- The rank right below that of an operator. -/
def below : Rank → Rank
  | nullish => conditional
  | or => nullish
  | and => or
  | bitOr => and
  | bitXor => bitOr
  | bitAnd => bitXor
  | equality => bitAnd
  | comparison => equality
  | shift => comparison
  | sum => shift
  | product => sum
  | power => product
  | rank => rank

end Rank

/-- What is demanded of a tree where it is written. -/
structure Slot where
  /-- What binds no tighter than this is put in parentheses. -/
  rank : Rank := .lowest
  /-- Whether the operator `in` would be taken for that of a loop. -/
  noIn : Bool := false
  /-- Whether a call would be taken for that of `new`. -/
  noCall : Bool := false
  /-- Written as part of a statement and not as one; of a pattern, that it
  is assigned to and declares nothing. -/
  isPart : Bool := false
deriving DecidableEq, Repr

/-- How a tree is written. -/
abbrev Printed := Slot → Printing Unit

/-- A tree with how it is written. -/
abbrev Piece := Syntax.Node × Printed

namespace Piece

/-- Writes an expression that stands between commas. -/
def item (p : Piece) : Printing Unit := p.2 { rank := .comma }

/-- Writes an expression that stands on its own. -/
def whole (p : Piece) : Printing Unit := p.2 {}

/-- What the tree is. -/
def shape (p : Piece) : Syntax.Shape Syntax.Node := p.1.shape

/-- Where the tree begins. -/
def start (p : Piece) : Nat := p.1.span.start

end Piece

/-- A tree without the parentheses around it. -/
def bare (node : Syntax.Node) : Syntax.Node :=
  node.para fun span shape =>
    match shape with
    | .paren value => value.2
    | shape => ⟨span, shape.map (·.1)⟩

end DepBundle.Print
