import DepBundle.Plain.TypeOnly
import DepBundle.Syntax.Fresh
/-!
# Plain programs — namespaces

A namespace becomes a function called with the object that holds what the
namespace exports. Inside it the object has a name of its own, so that the
name of the namespace stays free for what is declared there.
-/

namespace DepBundle.Plain

open Syntax

/-- Where the namespaces of a tree that hold values begin and what they are
called, each before those inside it. -/
def namespaces (node : Node) : List (Nat × String) :=
  node.para fun span shape =>
    match shape with
    | .namespaceDecl isAmbient name body =>
      if isAmbient then []
      else match name.1.shape with
        | .binding name => (span.start, name) :: (body.map (·.2)).getD []
        | _ => []
    | shape => shape.children.flatMap (·.2)

/-- Whether a namespace of a tree exports variables that may change, which
its object could not follow. -/
def exportsVariables (node : Node) : Bool :=
  (node.para fun _ shape =>
    match shape with
    | .namespaceDecl isAmbient _ body => (false, !isAmbient && body.any (·.2.2))
    | .namespaceBody items =>
      (false, items.any fun (item, within) => within.2 || (exported? item).any fun d =>
        match d.shape with
        | .declare kind isAmbient _ => !isAmbient && kind != .constKind
        | _ => false)
    | shape => (false, shape.children.any (·.2.2)) : Bool × Bool).2

/-- Where a namespace is declared. -/
structure Outer where
  /-- The object of the namespace that exports it. -/
  parent : Option String := none
  /-- Whether the module exports it. -/
  isExported : Bool := false
  /-- Whether its name is declared before it. -/
  isDeclared : Bool := false

/-- The statements that stand for a statement. -/
abbrev Expansion := Outer → List Node

/-- The object of a namespace, which is made where there is none yet. -/
def namespaceObject (parent : Option String) (name : String) : Node :=
  let ensured (target : Node) (value : Node) : Node :=
    Node.made (.binary "||" target (Node.made (.paren (Node.ofAssignment target value))))
  let empty := Node.made (.object [])
  match parent with
  | none => ensured (Node.ofName name) empty
  | some parent =>
    let inner := ensured (Node.ofMember parent name) empty
    Node.made (.binary "||" (Node.ofName name)
      (Node.made (.paren (Node.ofAssignment (Node.ofName name) inner))))

/-- A namespace as the statements it stands for; none where it is empty. -/
def ofNamespace (span : Span) (name object : String) (statements : List Node) : Expansion
  | outer =>
    if statements.isEmpty then []
    else
      let variable' := Node.ofVariable ⟨0, 0⟩ .letKind name none
      let declared :=
        if outer.isDeclared then []
        else if outer.isExported then [Node.made (.exportDecl variable')]
        else [variable']
      let function := Node.made (.paren (Node.ofFunction object ⟨0, 0⟩ statements))
      declared ++
        [⟨span, .expression (Node.ofCall function [namespaceObject outer.parent name])⟩]

/-- An exported constant, whose value the object gets as well. -/
def exportedConstant (object : String) (declarator : Node) : Node :=
  match declarator.shape with
  | .declarator target (some value) =>
    match target.boundNames with
    | [name] =>
      ⟨declarator.span, .declarator target
        (some (Node.ofAssignment (Node.ofMember object name) value))⟩
    | _ => declarator
  | _ => declarator

/-- Whether a declarator declares one name and not by a pattern. -/
def declaresName (declarator : Node) : Bool :=
  match declarator.shape with
  | .declarator target _ =>
    match target.shape with
    | .binding _ => true
    | .annotated inner _ => match inner.shape with
      | .binding _ => true
      | _ => false
    | _ => false
  | _ => false

/-- The statements for constants that a namespace exports. -/
def exportedConstants (object : String) (span : Span) (kind : VariableKind)
    (declarators : List Node) : List Node :=
  if declarators.all declaresName then
    [⟨span, .declare kind false (declarators.map (exportedConstant object))⟩]
  else
    let updates := (declarators.flatMap Node.boundNames).map fun name =>
      Node.ofAssignment (Node.ofMember object name) (Node.ofName name)
    [⟨span, .declare kind false declarators⟩,
      Node.made (.expression (Node.made (.sequence updates)))]

/-- The statements for what a namespace exports. -/
def exportedMember (object : String) (declaration : Node) : List Node :=
  if isTypeOnly declaration then []
  else match declaration.shape with
    | .declare kind _ declarators => exportedConstants object declaration.span kind declarators
    | .importEquals .. => []
    | _ => declaration :: declaration.lexicalNames.map fun name =>
        Node.ofUpdate (Node.ofMember object name) (Node.ofName name)

/-- Whether a statement is a namespace, perhaps exported. -/
def isNamespace (node : Node) : Bool :=
  match (declaration node).shape with
  | .namespaceDecl .. => true
  | _ => false

/-- The statements for those in the body of a namespace. -/
def bodyMembers (object : String) :
    (declared : List String) → List (Node × Expansion) → List Node
  | _, [] => []
  | declared, (item, expansion) :: items =>
    let isDeclared := item.lexicalNames.any declared.contains
    let own :=
      if isNamespace item then
        expansion { parent := (exported? item).map fun _ => object, isDeclared }
      else match exported? item with
        | some declaration => exportedMember object declaration
        | none => if isTypeOnly item then [] else [item]
    own ++ bodyMembers object (valueNames item ++ declared) items

/-- The statements for those of a program. -/
def programMembers : (declared : List String) → List (Node × Expansion) → List Node
  | _, [] => []
  | declared, (item, expansion) :: items =>
    let isDeclared := item.lexicalNames.any declared.contains
    let own :=
      if isNamespace item && !isTypeOnly (declaration item) then
        expansion { isExported := (exported? item).isSome, isDeclared }
      else [item]
    own ++ programMembers (valueNames item ++ declared) items

/-- The statements for a statement, given what the objects of namespaces
are called by where they begin. -/
def expansion (objects : List (Nat × String)) (span : Span) (shape : Shape (Node × Expansion)) :
    Expansion := fun outer =>
  match shape with
  | .namespaceDecl false name (some body) =>
    match name.1.shape, objects.lookup span.start with
    | .binding name, some object =>
      ofNamespace span name object (body.2 { parent := some object }) outer
    | _, _ => []
  | .namespaceDecl .. => []
  | .namespaceBody items => bodyMembers (outer.parent.getD "") [] items
  | .exportDecl declaration => declaration.2 outer
  | .program items => [⟨span, .program (programMembers [] items)⟩]
  | shape => [⟨span, shape.map (·.1)⟩]

/-- A program without namespaces; nothing where one exports variables. -/
def withoutNamespaces? (program : Node) : Option Node :=
  if exportsVariables program then none
  else
    let found := namespaces program
    let objects := freshAll program.allNames (found.map (·.2))
    (program.para (expansion ((found.map (·.1)).zip objects)) {}).head?

end DepBundle.Plain
