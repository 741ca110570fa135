import DepBundle.Syntax.Node
/-!
# Syntax — targets of assignments

What is assigned to is read as an expression first. `target?` is the
target an expression stands for: names and members stand for themselves,
and array and object literals for patterns of targets.
-/

namespace DepBundle.Syntax

/-- Whether a tree is an array or object literal. -/
def Node.isLiteralPattern (node : Node) : Bool :=
  match node.shape with
  | .array _ | .object _ => true
  | _ => false

/-- A target, and where members were read that only a pattern can have. -/
abbrev Target := Node × List Nat

namespace Target

/-- Whether assigning to a tree is assigning to a place: a name, a member,
or one of them under a type or in parentheses. -/
def isPlace : Shape (Node × Bool) → Bool
  | .reference _ | .member _ _ _ | .index _ _ _ => true
  | .asType value _ | .nonNull value | .typeAssertion _ value | .paren value => value.2
  | _ => false

/-- A target with its default, where the expression is an assignment. -/
def item? (node : Node) (target : Option Target) : Option Target :=
  match node.shape with
  | .assign "=" left right => some (⟨node.span, .defaulted left right⟩, [])
  | _ => target

/-- The targets of the items of a list whose last one may take the rest;
`trailing` says where a comma follows an item that is the last. -/
def items? (trailing : List Nat) : List (Node × Option Target) → Option (List Target)
  | [] => some []
  | (node, target) :: more =>
    match node.shape with
    | .spread _ =>
      if more.isEmpty && !trailing.contains node.span.start then target.map ([·]) else none
    | .hole => (items? trailing more).map ((node, []) :: ·)
    | _ => do
      let first ← item? node target
      let rest ← items? trailing more
      return first :: rest

/-- The target of one tree, by the targets of its subtrees. -/
def step (trailing : List Nat) (span : Span) (shape : Shape (Node × Option Target)) :
    Option Target :=
  match shape with
  | .array items => do
    let targets ← items? trailing items
    return (⟨span, .arrayPattern (targets.map (·.1))⟩, targets.flatMap (·.2))
  | .object members => do
    let targets ← items? trailing members
    return (⟨span, .objectPattern (targets.map (·.1))⟩, targets.flatMap (·.2))
  | .spread (_, value) => do
    let (target, pending) ← value
    return (⟨span, .rest target⟩, pending)
  | .property computed (key, _) (value, target) => do
    let (target, pending) ← item? value target
    return (⟨span, .patternProperty computed key target⟩, pending)
  | .shorthand (value, _) =>
    match value.shape with
    | .defaulted _ _ => some (⟨span, .patternShorthand value⟩, [span.start])
    | _ => some (⟨span, .patternShorthand value⟩, [])
  | .paren (value, target) => if value.isLiteralPattern then none else target
  | shape =>
    if isPlace (shape.map fun (n, t) => (n, t.isSome)) then
      some (⟨span, shape.map (·.1)⟩, [])
    else none

end Target

/-- The target an expression stands for. -/
def Node.target? (trailing : List Nat) (node : Node) : Option Target :=
  node.para (Target.step trailing)

end DepBundle.Syntax
