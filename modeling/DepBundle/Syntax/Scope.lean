import DepBundle.Syntax.Node
/-!
# Syntax — scopes

Which names a tree declares for what stands inside it, and which it refers
to without declaring them. Scopes are told apart by names alone: `frame`
says what a scope declares, `placed` which subtrees are inside it, and a
name is free where no scope around it declares it.
-/

namespace DepBundle.Syntax

/-- The names that a pattern declares, in order. -/
def Node.boundNames (node : Node) : List String :=
  node.para fun _ shape =>
    match shape with
    | .binding name => [name]
    | .arrayPattern items | .objectPattern items => items.flatMap (·.2)
    | .patternProperty _ _ target | .patternShorthand target | .defaulted target _
    | .rest target | .annotated target _ | .param _ _ target | .declarator target _ => target.2
    | .declare _ _ declarators => declarators.flatMap (·.2)
    | .function _ name _ _ _ _ | .classDef _ _ name _ _ _ _ => (name.map (·.2)).getD []
    | .params items => items.flatMap (·.2)
    | _ => []

/-- The names that `var` declares somewhere in a tree for the function
around it. -/
def Node.varNames (node : Node) : List String :=
  node.para fun _ shape =>
    match shape with
    | .declare .varKind _ declarators => declarators.flatMap (·.1.boundNames)
    | .function .. | .arrow .. | .classDef .. | .staticBlock _ | .namespaceDecl .. => []
    | shape => shape.children.flatMap (·.2)

/-- The names that a statement declares for the statements beside it. -/
def Node.lexicalNames (node : Node) : List String :=
  node.para fun _ shape =>
    match shape with
    | .declare kind _ declarators =>
      if kind = .varKind then [] else declarators.flatMap (·.1.boundNames)
    | .function flags name _ _ _ _ =>
      if flags.role = .declaration then (name.map (·.1.boundNames)).getD [] else []
    | .classDef flags _ name _ _ _ _ =>
      if flags.isDeclaration then (name.map (·.1.boundNames)).getD [] else []
    | .exportDecl declaration | .exportDefault declaration => declaration.2
    | .labeled _ body => body.2
    | .importDecl _ _ specifiers _ _ => specifiers.flatMap (·.2)
    | .importDefault target | .importAll target | .importNamed _ _ target => target.1.boundNames
    | .typeDecl name _ | .enumDecl _ name _ | .namespaceDecl _ name _ | .importEquals _ name _ =>
      name.1.boundNames
    | _ => []

/-- The names declared anywhere among the parts of types. -/
def Node.typeNames (node : Node) : List String :=
  node.para fun _ shape =>
    match shape with
    | .binding name => [name]
    | .typeParts parts => parts.flatMap (·.2)
    | .params items => items.flatMap (·.2)
    | .param _ _ target | .annotated target _ | .rest target => target.2
    | _ => []

/-- The names that statements declare where `var` goes no further. -/
def hoistedNames (statements : List Node) : List String :=
  statements.flatMap Node.varNames ++ statements.flatMap Node.lexicalNames

/-- The statements of a body. -/
def Node.statements (node : Node) : List Node :=
  match node.shape with
  | .body items | .block items | .case _ items => items
  | _ => []

namespace Shape

/-- The names a tree declares for what stands inside it. -/
def frame : Shape Node → List String
  | program statements | staticBlock statements | namespaceBody statements =>
    hoistedNames statements
  | block statements => statements.flatMap Node.lexicalNames
  | function flags name typeParams given _ inner =>
    (if flags.role = .expression then (name.map Node.boundNames).getD [] else [])
      ++ (typeParams.map Node.typeNames).getD [] ++ given.boundNames
      ++ hoistedNames ((inner.map Node.statements).getD [])
  | arrow _ typeParams given _ inner =>
    (typeParams.map Node.typeNames).getD [] ++ given.boundNames ++ hoistedNames inner.statements
  | classDef flags _ name typeParams _ _ _ =>
    (if flags.isDeclaration then [] else (name.map Node.boundNames).getD [])
      ++ (typeParams.map Node.typeNames).getD []
  | forLoop start _ _ _ => (start.map Node.lexicalNames).getD []
  | forIn target _ _ | forOf _ target _ _ => target.lexicalNames
  | switch _ cases => cases.flatMap fun c => c.statements.flatMap Node.lexicalNames
  | handler target _ => (target.map Node.boundNames).getD []
  | typeScope parts | typeDecl _ parts => parts.flatMap Node.typeNames
  | _ => []

variable {α : Type}

/-- The subtrees in the order they are visited, and whether each stands
inside what the tree declares names for. -/
def placed : Shape α → List (Bool × α)
  | classDef flags decorators name typeParams parent interfaces members =>
    decorators.map (false, ·)
      ++ (classDef flags [] name typeParams parent interfaces members).children.map (true, ·)
  | switch subject cases => (false, subject) :: cases.map (true, ·)
  | shape => shape.children.map (true, ·)

theorem map_snd_placed (shape : Shape α) : shape.placed.map (·.2) = shape.children := by
  cases shape <;> simp [placed, children, Function.comp_def]

end Shape

/-- The names a tree refers to that no scope inside it declares. -/
def Node.freeNames (node : Node) : List String :=
  node.para fun _ shape =>
    match shape with
    | .reference name => [name]
    | shape =>
      let declared := (shape.map (·.1)).frame
      shape.placed.flatMap fun (inside, _, names) =>
        if inside then names.filter (!declared.contains ·) else names

end DepBundle.Syntax
