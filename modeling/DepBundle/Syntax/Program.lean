import DepBundle.Syntax.Grammar.Clause
import DepBundle.Syntax.Scope
/-!
# Syntax — programs

The grammar tied together, and the tree of a whole text. A text is
accepted as it is read, whatever its names refer to: what is checked beyond
the grammar is that no default is left that only a pattern can have, and
that no name is exported twice where there are no types.
-/

namespace DepBundle.Syntax

/-- How each place of the grammar is read, by how the others are. -/
def Grammar.rule (sub : Grammar) : Goal → Parse Node
  | .statement alone => Grammar.anyStatement sub alone
  | .expression => Grammar.expression sub
  | .assignment => Grammar.assignment sub
  | .operands above => Grammar.operands sub above
  | .unary => Grammar.unary sub
  | .leftHand => Grammar.leftHand sub
  | .pattern => Grammar.pattern sub
  | .type => Grammar.type sub
  | .element => Grammar.element sub

/-- The grammar for trees of bounded height. -/
def Grammar.upTo : Nat → Grammar
  | 0 => fun _ => Parse.refuse
  | n + 1 => Grammar.rule (Grammar.upTo n)

/-- A program: its tree and its comments in order. -/
structure Program where
  tree : Node
  comments : List Comment
deriving Inhabited

/-- The name a clause spells. -/
def Node.clauseText (node : Node) : String :=
  match node.shape with
  | .word w | .reference w | .binding w | .string w => w
  | _ => ""

/-- The names a statement exports. -/
def Node.exportedNames (node : Node) : List String :=
  let named (items : List Node) : List String := items.map fun item =>
    match item.shape with
    | .exportNamed _ inner exported => (exported.getD inner).clauseText
    | _ => ""
  match node.shape with
  | .exportAll _ (some exported) _ _ => [exported.clauseText]
  | .exportFrom _ items _ _ | .exportNames _ items => named items
  | .exportDecl declaration => declaration.boundNames
  | .exportDefault _ => ["default"]
  | _ => []

/-- The program that begins at a place. -/
def Program.read (depth : Nat) : Parse Program := do
  let items ← Grammar.statements (Grammar.upTo depth) (do return (← Parse.token) == .finish)
  let place ← get
  Parse.require place.pending.isEmpty
  Parse.require
    (place.dialect.typed || (items.flatMap Node.exportedNames).Nodup)
  return ⟨⟨⟨0, place.stop⟩, .program items⟩, (place.between.reverse ++ place.comments).reverse⟩

/-- What follows a first line that only says what runs the text. -/
def afterFirstLine (cs : List Char) : Nat × List Char :=
  match cs with
  | '#' :: '!' :: rest =>
    let line := rest.takeWhile (!isLineBreak ·)
    (line.length + 2, rest.drop line.length)
  | _ => (0, cs)

/-- The program a text writes. -/
def Program.parse? (dialect : Dialect) (source : String) : Option Program :=
  let cs := source.toList
  let (offset, rest) := afterFirstLine cs
  let place : Place :=
    { dialect := dialect, limit := cs.length + 2
      context := { isAsync := dialect.isModule }, stop := offset, rest := rest }
  ((Program.read (10 * (cs.length + 2))).run (Parse.next place)).map (·.1)

end DepBundle.Syntax
