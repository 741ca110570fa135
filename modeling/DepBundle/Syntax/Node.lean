import DepBundle.Syntax.Shape
/-!
# Syntax — trees

A tree is a shape of trees with the stretch of text it was read from.
`para` is the one recursion: a step sees a shape whose subtrees come
together with what was computed for them, and is free to leave some of it
unused. `para_mk` is the equation everything computed this way is read off.
-/

namespace DepBundle.Syntax

/-- A stretch of text, by the numbers of characters before its ends. -/
structure Span where
  start : Nat
  stop : Nat
deriving DecidableEq, Repr, Inhabited

/-- A syntax tree. -/
inductive Node where
  | mk (span : Span) (shape : Shape Node)

namespace Node

instance : Inhabited Node := ⟨⟨default, .empty⟩⟩

/-- Where the tree was read from. -/
def span : Node → Span
  | mk span _ => span

/-- What the tree is. -/
def shape : Node → Shape Node
  | mk _ shape => shape

/-- The subtrees right below, in the order they are visited. -/
def children (node : Node) : List Node := node.shape.children

variable {β : Type}

mutual

/-- What `step` computes along a tree, from the leaves up. -/
def para (step : Span → Shape (Node × β) → β) : Node → β
  | mk span shape => step span (paraShape step shape)

/-- The shape with what is computed for its subtrees beside them. -/
def paraShape (step : Span → Shape (Node × β) → β) : Shape Node → Shape (Node × β)
  | .binding a => .binding a
  | .reference a => .reference a
  | .word a => .word a
  | .privateWord a => .privateWord a
  | .null => .null
  | .boolean a => .boolean a
  | .number a => .number a
  | .bigint a => .bigint a
  | .string a => .string a
  | .regex a => .regex a
  | .template a b => .template a (paraList step b)
  | .thisValue => .thisValue
  | .superValue => .superValue
  | .metaProperty a b => .metaProperty a b
  | .array a => .array (paraList step a)
  | .hole => .hole
  | .spread a => .spread (a, para step a)
  | .object a => .object (paraList step a)
  | .property a b c => .property a (b, para step b) (c, para step c)
  | .shorthand a => .shorthand (a, para step a)
  | .method a b c d => .method a (paraList step b) (c, para step c) (d, para step d)
  | .function a b c d e f =>
    .function a (paraOption step b) (paraOption step c) (d, para step d) (paraOption step e) (paraOption step f)
  | .arrow a b c d e =>
    .arrow a (paraOption step b) (c, para step c) (paraOption step d) (e, para step e)
  | .params a => .params (paraList step a)
  | .param a b c => .param a (paraList step b) (c, para step c)
  | .body a => .body (paraList step a)
  | .classDef a b c d e f g =>
    .classDef a (paraList step b) (paraOption step c) (paraOption step d) (paraOption step e) (paraList step f) (paraList step g)
  | .field a b c d e =>
    .field a (paraList step b) (c, para step c) (paraOption step d) (paraOption step e)
  | .staticBlock a => .staticBlock (paraList step a)
  | .decorator a => .decorator (a, para step a)
  | .paren a => .paren (a, para step a)
  | .member a b c => .member a (b, para step b) (c, para step c)
  | .index a b c => .index a (b, para step b) (c, para step c)
  | .call a b c d => .call a (b, para step b) (paraOption step c) (paraList step d)
  | .construct a b c => .construct (a, para step a) (paraOption step b) (paraList step c)
  | .importCall a b => .importCall (a, para step a) (paraOption step b)
  | .taggedTemplate a b c => .taggedTemplate (a, para step a) (paraOption step b) (c, para step c)
  | .chain a => .chain (a, para step a)
  | .unary a b => .unary a (b, para step b)
  | .update a b c => .update a b (c, para step c)
  | .binary a b c => .binary a (b, para step b) (c, para step c)
  | .conditional a b c => .conditional (a, para step a) (b, para step b) (c, para step c)
  | .assign a b c => .assign a (b, para step b) (c, para step c)
  | .sequence a => .sequence (paraList step a)
  | .await a => .await (a, para step a)
  | .yield a b => .yield a (paraOption step b)
  | .dispensable a => .dispensable (a, para step a)
  | .arrayPattern a => .arrayPattern (paraList step a)
  | .objectPattern a => .objectPattern (paraList step a)
  | .patternProperty a b c => .patternProperty a (b, para step b) (c, para step c)
  | .patternShorthand a => .patternShorthand (a, para step a)
  | .defaulted a b => .defaulted (a, para step a) (b, para step b)
  | .rest a => .rest (a, para step a)
  | .annotated a b => .annotated (a, para step a) (paraOption step b)
  | .program a => .program (paraList step a)
  | .directive a => .directive a
  | .empty => .empty
  | .expression a => .expression (a, para step a)
  | .block a => .block (paraList step a)
  | .declare a b c => .declare a b (paraList step c)
  | .declarator a b => .declarator (a, para step a) (paraOption step b)
  | .choose a b c => .choose (a, para step a) (b, para step b) (paraOption step c)
  | .forLoop a b c d =>
    .forLoop (paraOption step a) (paraOption step b) (paraOption step c) (d, para step d)
  | .forIn a b c => .forIn (a, para step a) (b, para step b) (c, para step c)
  | .forOf a b c d => .forOf a (b, para step b) (c, para step c) (d, para step d)
  | .whileLoop a b => .whileLoop (a, para step a) (b, para step b)
  | .doWhile a b => .doWhile (a, para step a) (b, para step b)
  | .continueTo a => .continueTo (paraOption step a)
  | .breakTo a => .breakTo (paraOption step a)
  | .returns a => .returns (paraOption step a)
  | .throws a => .throws (a, para step a)
  | .attempt a b c => .attempt (a, para step a) (paraOption step b) (paraOption step c)
  | .handler a b => .handler (paraOption step a) (b, para step b)
  | .switch a b => .switch (a, para step a) (paraList step b)
  | .case a b => .case (paraOption step a) (paraList step b)
  | .labeled a b => .labeled (a, para step a) (b, para step b)
  | .withObject a b => .withObject (a, para step a) (b, para step b)
  | .debugger => .debugger
  | .importDecl a b c d e => .importDecl a b (paraList step c) (d, para step d) (paraOption step e)
  | .importDefault a => .importDefault (a, para step a)
  | .importAll a => .importAll (a, para step a)
  | .importNamed a b c => .importNamed a (paraOption step b) (c, para step c)
  | .exportAll a b c d => .exportAll a (paraOption step b) (c, para step c) (paraOption step d)
  | .exportFrom a b c d => .exportFrom a (paraList step b) (c, para step c) (paraOption step d)
  | .exportNames a b => .exportNames a (paraList step b)
  | .exportNamed a b c => .exportNamed a (b, para step b) (paraOption step c)
  | .exportDecl a => .exportDecl (a, para step a)
  | .exportDefault a => .exportDefault (a, para step a)
  | .attributes a b => .attributes a (paraList step b)
  | .typeParts a => .typeParts (paraList step a)
  | .typeScope a => .typeScope (paraList step a)
  | .typeDecl a b => .typeDecl (a, para step a) (paraList step b)
  | .asType a b => .asType (a, para step a) (b, para step b)
  | .typeAssertion a b => .typeAssertion (a, para step a) (b, para step b)
  | .nonNull a => .nonNull (a, para step a)
  | .instantiation a b => .instantiation (a, para step a) (b, para step b)
  | .enumDecl a b c => .enumDecl a (b, para step b) (paraList step c)
  | .enumMember a b => .enumMember (a, para step a) (paraOption step b)
  | .namespaceDecl a b c => .namespaceDecl a (b, para step b) (paraOption step c)
  | .namespaceBody a => .namespaceBody (paraList step a)
  | .importEquals a b c => .importEquals a (b, para step b) (c, para step c)
  | .externalModule a => .externalModule (a, para step a)
  | .exportEquals a => .exportEquals (a, para step a)
  | .element a b c d e =>
    .element (a, para step a) (paraOption step b) (paraList step c) (paraList step d) (paraOption step e)
  | .fragment a => .fragment (paraList step a)
  | .tagAttribute a b => .tagAttribute (a, para step a) (paraOption step b)
  | .spreadAttribute a => .spreadAttribute (a, para step a)
  | .markupText a => .markupText a
  | .container a => .container (paraOption step a)
  | .spreadChild a => .spreadChild (a, para step a)

/-- The trees with what is computed for them beside them. -/
def paraList (step : Span → Shape (Node × β) → β) : List Node → List (Node × β)
  | [] => []
  | n :: ns => (n, para step n) :: paraList step ns

/-- The tree, if there is one, with what is computed for it beside it. -/
def paraOption (step : Span → Shape (Node × β) → β) : Option Node → Option (Node × β)
  | none => none
  | some n => some (n, para step n)

end

theorem paraList_eq (step : Span → Shape (Node × β) → β) (ns : List Node) :
    paraList step ns = ns.map fun n => (n, para step n) := by
  induction ns with
  | nil => simp [paraList]
  | cons n ns ih => simp [paraList, ih]

theorem paraOption_eq (step : Span → Shape (Node × β) → β) (o : Option Node) :
    paraOption step o = o.map fun n => (n, para step n) := by
  cases o <;> simp [paraOption]

theorem paraShape_eq (step : Span → Shape (Node × β) → β) (shape : Shape Node) :
    paraShape step shape = shape.map fun n => (n, para step n) := by
  cases shape <;> simp only [Shape.map, ← paraList_eq, ← paraOption_eq] <;> rfl

/-- **The equation of the recursion.** The step sees the shape whose
subtrees come with what was computed for them. -/
theorem para_mk (step : Span → Shape (Node × β) → β) (span : Span) (shape : Shape Node) :
    para step (mk span shape) = step span (shape.map fun n => (n, para step n)) := by
  rw [← paraShape_eq]
  rfl

end Node

end DepBundle.Syntax
