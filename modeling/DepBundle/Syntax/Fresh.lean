import DepBundle.Syntax.Node
/-!
# Syntax — trees made anew

Trees that no text was read for, and names for what they declare: a fresh
name is one that the tree at hand does not hold.
-/

namespace DepBundle.Syntax

/-! ## Names -/

/-- All names that a tree declares or refers to. -/
def Node.allNames (node : Node) : List String :=
  node.para fun _ shape =>
    match shape with
    | .binding name | .reference name => [name]
    | shape => shape.children.flatMap (·.2)

/-- A name with an underscore before it, and a number behind it but for the
first of them. -/
def numbered (base : String) (n : Nat) : String :=
  "_" ++ base ++ if n = 0 then "" else toString (n + 1)

/-- A name without underscores before it and digits behind it. -/
def stem (name : String) : String :=
  String.ofList ((name.toList.dropWhile (· == '_')).reverse.dropWhile Char.isDigit).reverse

/-- A name that is not among those taken. -/
def fresh (taken : List String) (name : String) : String :=
  let candidates := (List.range (taken.length + 1)).map (numbered (stem name))
  (candidates.find? (!taken.contains ·)).getD (numbered (stem name) (taken.length + 1))

/-- Fresh names for several, in order, each taken from then on. -/
def freshAll : (taken : List String) → List String → List String
  | _, [] => []
  | taken, name :: names =>
    let own := fresh taken name
    own :: freshAll (own :: taken) names

/-! ## Trees -/

namespace Node

/-- A tree that no text was read for. -/
def made (shape : Shape Node) : Node := ⟨⟨0, 0⟩, shape⟩

/-- A reference to a name. -/
def ofName (name : String) : Node := made (.reference name)

/-- A string. -/
def ofString (value : String) : Node := made (.string value)

/-- A property of what a name refers to. -/
def ofMember (object name : String) : Node :=
  made (.member false (ofName object) (made (.word name)))

/-- An assignment. -/
def ofAssignment (target value : Node) : Node := made (.assign "=" target value)

/-- An assignment as a statement. -/
def ofUpdate (target value : Node) : Node := made (.expression (ofAssignment target value))

/-- A function of one parameter. -/
def ofFunction (param : String) (bodySpan : Span) (statements : List Node) : Node :=
  let params := made (.params [made (.param false [] (made (.binding param)))])
  made (.function ⟨.expression, false, false⟩ none none params none
    (some ⟨bodySpan, .body statements⟩))

/-- A call. -/
def ofCall (callee : Node) (args : List Node) : Node := made (.call false callee none args)

/-- The declaration of one variable, perhaps with its value. -/
def ofVariable (span : Span) (kind : VariableKind) (name : String) (value : Option Node) : Node :=
  ⟨span, .declare kind false [made (.declarator (made (.binding name)) value)]⟩

end Node

/-! ## Lists of statements -/

namespace Shape

variable {α : Type}

/-- The shape with its list of statements replaced, where it is one that
holds statements. -/
def mapStatements (fn : List α → List α) : Shape α → Shape α
  | program items => program (fn items)
  | body items => body (fn items)
  | block items => block (fn items)
  | case test items => case test (fn items)
  | staticBlock items => staticBlock (fn items)
  | namespaceBody items => namespaceBody (fn items)
  | shape => shape

end Shape

end DepBundle.Syntax
