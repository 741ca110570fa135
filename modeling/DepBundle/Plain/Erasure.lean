import DepBundle.Plain.Enumeration
/-!
# Plain programs — types taken out

What is left of a program once its types are gone. Types say nothing about
how values are computed, so an expression under a type is that expression;
what only types can write down is spelled out: enumerations, parameters
that are fields, and imports of members of namespaces.
-/

namespace DepBundle.Plain

open Syntax

/-- A tree as it is and without types. -/
abbrev Erased := Node × Node

/-! ## Classes -/

/-- Whether a member of a class is there when the program runs. -/
def isMember (member : Node) : Bool :=
  match member.shape with
  | .typeScope _ | .typeParts _ => false
  | .field flags .. => !flags.isAmbient
  | .method _ _ _ value => !isTypeOnly value
  | _ => true

/-- The name a parameter declares, if it is a field as well. -/
def fieldName? (param : Node) : Option String :=
  match param.shape with
  | .param true _ target => target.boundNames.head?
  | _ => none

/-- The names of a function's parameters that are fields as well. -/
def fieldNames (function : Node) : List String :=
  match function.shape with
  | .function _ _ _ params _ _ => params.children.filterMap fieldName?
  | _ => []

/-- Whether a statement makes the object of the class above. -/
def callsSuper (statement : Node) : Bool :=
  match statement.shape with
  | .expression value =>
    match value.shape with
    | .call _ callee _ _ => match callee.shape with
      | .superValue => true
      | _ => false
    | _ => false
  | _ => false

/-- Whether a statement is a directive. -/
def isDirective (statement : Node) : Bool :=
  match statement.shape with
  | .directive _ => true
  | _ => false

/-- Statements with others put where the object of a class is there first:
behind what makes it, or else at the head. -/
def atObject (updates statements : List Node) : List Node :=
  if statements.any callsSuper then
    statements.flatMap fun s => if callsSuper s then s :: updates else [s]
  else
    statements.takeWhile isDirective ++ updates ++ statements.dropWhile isDirective

/-- The function of a method that gives an object fields. -/
def givesFields (names : List String) (function : Node) : Node :=
  let update (name : String) : Node :=
    Node.ofUpdate (Node.made (.member false (Node.made .thisValue) (Node.made (.word name))))
      (Node.ofName name)
  if names.isEmpty then function
  else match function.shape with
    | .function flags name types params result (some ⟨span, .body statements⟩) =>
      ⟨function.span, .function flags name types params result
        (some ⟨span, .body (atObject (names.map update) statements)⟩)⟩
    | _ => function

/-! ## Statements -/

/-- The variable for what an import gives a name to: another module, which
is required by a call, or a member of a namespace. -/
def importedVariable (name : String) (target : Node) : Node :=
  match target.shape with
  | .externalModule source =>
    Node.ofVariable ⟨0, 0⟩ .constKind name (some (Node.ofCall (Node.ofName "require") [source]))
  | _ => Node.ofVariable ⟨0, 0⟩ .varKind name (some target)

/-- The statements for one that stands beside others, given the names that
are declared before it and those that are used. -/
def ofStatement (isTop : Bool) (declared used : List String) (item : Erased) : List Node :=
  let isDeclared := item.1.lexicalNames.any declared.contains
  match item.1.shape, item.2.shape with
  | .enumDecl false _ _, _ => [ofEnumeration isTop false isDeclared item.1 item.2]
  | .importEquals false name target, _ =>
    if name.boundNames.any used.contains then
      name.boundNames.map fun w => importedVariable w target
    else []
  | .exportEquals _, .exportEquals value =>
    [Node.ofUpdate (Node.ofMember "module" "exports") value]
  | .exportDecl inner, .exportDecl plain =>
    match inner.shape with
    | .enumDecl false _ _ =>
      let made := ofEnumeration isTop true isDeclared inner plain
      if isDeclared then [made] else [⟨item.1.span, .exportDecl made⟩]
    | .importEquals false name target =>
      name.boundNames.map fun w => ⟨item.1.span, .exportDecl (importedVariable w target)⟩
    | _ => [item.2]
  | _, _ => if isTypeOnly item.1 then [] else [item.2]

/-- The statements for those that stand together. -/
def ofStatements (isTop : Bool) (used : List String) :
    (declared : List String) → List Erased → List Node
  | _, [] => []
  | declared, item :: items =>
    ofStatement isTop declared used item
      ++ ofStatements isTop used (valueNames item.1 ++ declared) items

/-- Whether a statement gives a name to a member of a namespace or to
another module. -/
def isImportEquals (item : Erased) : Bool :=
  match item.1.shape with
  | .importEquals .. => true
  | _ => false

/-- The statements for those that stand together, as they come. -/
def beside (isTop : Bool) (items : List Erased) : List Erased :=
  let used := if items.any isImportEquals then items.flatMap fun item => usedNames item.2 else []
  (ofStatements isTop used [] items).map fun n => (n, n)

/-! ## Trees -/

/-- Whether an item between parentheses is a parameter and not the type of
`this`. -/
def isParam (item : Erased) : Bool :=
  match item.1.shape with
  | .param .. => true
  | _ => false

/-- A tree without types, by its subtrees without them and what is known
where its enumerations begin. -/
def erase (known : List (Nat × Known)) (span : Span) (shape : Shape Erased) : Node :=
  match shape with
  | .program items => ⟨span, .program ((beside true items).map (·.2))⟩
  | .asType value _ | .typeAssertion _ value | .nonNull value | .instantiation value _ => value.2
  | .annotated target _ => target.2
  | .enumDecl false name members =>
    enumerationFunction span (name.1.boundNames.head?.getD "")
      ((known.lookup span.start).getD []) members
  | .function flags name _ params _ body =>
    ⟨span, .function flags (name.map (·.2)) none params.2 none (body.map (·.2))⟩
  | .arrow isAsync _ params _ body => ⟨span, .arrow isAsync none params.2 none body.2⟩
  | .params items => ⟨span, .params ((items.filter isParam).map (·.2))⟩
  | .param _ decorators target => ⟨span, .param false (decorators.map (·.2)) target.2⟩
  | .classDef flags decorators name _ parent _ members =>
    ⟨span, .classDef flags (decorators.map (·.2)) (name.map (·.2)) none (parent.map (·.2)) []
      ((members.filter fun m => isMember m.1).map (·.2))⟩
  | .method flags decorators key value =>
    let function := if flags.role = .constructor then givesFields (fieldNames value.1) value.2
      else value.2
    ⟨span, .method flags (decorators.map (·.2)) key.2 function⟩
  | .field flags decorators key _ value =>
    ⟨span, .field flags (decorators.map (·.2)) key.2 none (value.map (·.2))⟩
  | .call optional callee _ args => ⟨span, .call optional callee.2 none (args.map (·.2))⟩
  | .construct callee _ args => ⟨span, .construct callee.2 none (args.map (·.2))⟩
  | .taggedTemplate tag _ quasi => ⟨span, .taggedTemplate tag.2 none quasi.2⟩
  | shape => ⟨span, (shape.mapStatements (beside false)).map (·.2)⟩

/-- A program without types. -/
def withoutTypes (program : Node) : Node :=
  program.para (erase (knownAt [] (enumerations program)))

end DepBundle.Plain
