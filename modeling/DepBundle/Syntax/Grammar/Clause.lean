import DepBundle.Syntax.Grammar.Statement
/-!
# Grammar — imports and exports

The clauses that tie a module to others. A clause that names no other
module may only export what can be referred to.
-/

namespace DepBundle.Syntax.Grammar

open Parse

/-- What is stated about an import besides its source. -/
def attributes : Parse (Option Node) := do
  let s ← start
  let keyword ← if ← atWord "with" then pure "with"
    else if (← atWord "assert") && !(← onNewLine) then pure "assert"
    else pure ""
  if keyword == "" then return none
  advance
  let item : Parse Node := do
    let t ← start
    let key ← match ← token with
      | .string _ _ _ => string
      | _ => anyWord
    expectMark ":"
    let value ← string
    tree t (.property false key value)
  let (items, _) ← bracketed "\x7b" "\x7d" item
  some <$> tree s (.attributes keyword items)

/-- Whether `type` stands before a name of a clause, and is passed. -/
def eatTypeMark : Parse Bool := do
  if !((← typed) && (← atWord "type")) then return false
  let marks ← foresee do
    advance
    match ← token with
    | .word "as" false =>
      advance
      match ← token with
      | .word "as" false => advance; return isWord (← token)
      | .word _ _ => return false
      | _ => return true
    | .word _ _ | .string _ _ _ => return true
    | _ => return false
  if marks then advance
  return marks

/-- A name of an import clause. -/
def importedName : Parse Node := do
  let s ← start
  let typeOnly ← eatTypeMark
  if isName (← token) && !(← follows (· == .word "as" false)) then
    let target ← bindingName
    tree s (.importNamed typeOnly none target)
  else
    let imported ← clauseName
    expectWord "as"
    let target ← bindingName
    tree s (.importNamed typeOnly (some imported) target)

/-- A module as a whole, by the name it gets. -/
def wholeModule : Parse Node := do
  let s ← start
  expectMark "*"
  expectWord "as"
  let target ← bindingName
  tree s (.importAll target)

/-- The names of an import clause in braces. -/
def importedNames : Parse (List Node) := do return (← bracketed "\x7b" "\x7d" importedName).1

/-- An import clause. -/
def importClause : Parse (List Node) := do
  let s ← start
  if ← atMark "*" then return [← wholeModule]
  if ← atMark "\x7b" then return ← importedNames
  let target ← bindingName
  let first ← tree s (.importDefault target)
  if !(← eatMark ",") then return [first]
  if ← atMark "*" then return [first, ← wholeModule] else return first :: (← importedNames)

/-- The rest of an import that gives a name to another module or to a
member of a namespace. -/
def importEquals (s : Nat) (typeOnly : Bool) : Parse Node := do
  let name ← bindingName
  expectMark "="
  let t ← start
  let target ← if (← atWord "require") && (← follows (· == .mark "(")) then
      advance
      expectMark "("
      let source ← string
      expectMark ")"
      tree t (.externalModule source)
    else
      let head ← referenceName
      go (← get).limit t head
  semicolon
  tree s (.importEquals typeOnly name target)
where
  go : Nat → Nat → Node → Parse Node
    | 0, _, _ => refuse
    | n + 1, t, e => do
      if ← eatMark "." then
        let name ← anyWord
        go n t (← tree t (.member false e name))
      else return e

/-- Whether the clause of an import is about types only, which is then
passed. -/
def eatTypeClause : Parse Bool := do
  if !((← typed) && (← atWord "type")) then return false
  let marks ← foresee do
    advance
    match ← token with
    | .word "from" false =>
      advance
      return (← atWord "from") || (← atMark "=")
    | t => return isName t || t == .mark "\x7b" || t == .mark "*"
  if marks then advance
  return marks

/-- An import. -/
def importStatement : Parse Node := do
  let s ← start
  expectWord "import"
  match ← token with
  | .string _ _ _ =>
    let source ← string
    let stated ← attributes
    semicolon
    tree s (.importDecl false false [] source stated)
  | _ =>
    let typeOnly ← eatTypeClause
    if (← typed) && isName (← token) && (← follows (· == .mark "=")) then
      return ← importEquals s typeOnly
    let _ ← attempt do
      for w in ["source", "defer"] do
        if (← atWord w) && (← follows fun t => t == .mark "*" || (isName t && t != .word "from" false))
          then advance
    let items ← importClause
    expectWord "from"
    let source ← string
    let stated ← attributes
    semicolon
    tree s (.importDecl typeOnly true items source stated)

/-- A name of an export clause. -/
def exportedName : Parse Node := do
  let s ← start
  let typeOnly ← eatTypeMark
  let inner ← clauseName
  let exported ← if ← eatWord "as" then some <$> clauseName else pure none
  tree s (.exportNamed typeOnly inner exported)

/-- A name of an export clause as a reference, where it can be one. -/
def exportedReference (context : Context) (item : Node) : Option Node :=
  match item.shape with
  | .exportNamed typeOnly ⟨span, .word w⟩ exported =>
    if isFree context w then
      some ⟨item.span, .exportNamed typeOnly ⟨span, .reference w⟩ exported⟩
    else none
  | _ => none

/-- Names in braces, of another module if one is named. -/
def exportNames (s : Nat) (typeOnly : Bool) : Parse Node := do
  let (items, _) ← bracketed "\x7b" "\x7d" exportedName
  if ← eatWord "from" then
    let source ← string
    let stated ← attributes
    semicolon
    tree s (.exportFrom typeOnly items source stated)
  else
    match items.mapM (exportedReference (← get).context) with
    | none => refuse
    | some items =>
      semicolon
      tree s (.exportNames typeOnly items)

/-- All names of another module. -/
def exportAll (s : Nat) (typeOnly : Bool) : Parse Node := do
  expectMark "*"
  let exported ← if ← eatWord "as" then some <$> clauseName else pure none
  expectWord "from"
  let source ← string
  let stated ← attributes
  semicolon
  tree s (.exportAll typeOnly exported source stated)

/-- What is exported by default. -/
def exportDefault (sub : Grammar) (s : Nat) (decorated : List Node) : Parse Node := do
  let t ← start
  let value ← if (← atWord "class") || (← atMark "@") then
      let inner ← decorators sub
      classRest sub t ⟨true, false⟩ true (decorated ++ inner)
    else if (← typed) && (← atWord "abstract") && (← followsHere (· == .word "class" false)) then
      advance
      classRest sub t ⟨true, false⟩ true decorated
    else if (← typed) && (← atWord "interface") && (← followsHere isName) then interface sub
    else if ← atFunction then function sub .declaration true
    else
      let value ← sub .assignment
      semicolon
      pure value
  tree s (.exportDefault value)

/-- Whether a token is a word that begins a declaration. -/
def atDeclaration : Parse Bool := do
  if ← atTypeDeclaration then return true
  if ← atFunction then return true
  return (← atWord "class") || (← atMark "@") || (← atWord "let") || (← variableKind?).isSome

/-- An export. -/
def exportStatement (sub : Grammar) (decorated : List Node) : Parse Node := do
  let s ← start
  expectWord "export"
  if ← eatWord "default" then return ← exportDefault sub s decorated
  if ← atMark "*" then return ← exportAll s false
  if ← atMark "\x7b" then return ← exportNames s false
  if ← typed then
    if ← eatMark "=" then
      let value ← sub .expression
      semicolon
      return ← tree s (.exportEquals value)
    if (← atWord "as") && (← follows (· == .word "namespace" false)) then
      advance
      advance
      let name ← bindingName
      semicolon
      return ← tree s (.typeDecl name [])
    if (← atWord "type") && (← follows fun t => t == .mark "\x7b" || t == .mark "*") then
      advance
      if ← atMark "*" then return ← exportAll s true else return ← exportNames s true
    if ← atWord "import" then
      let t ← start
      advance
      let typeOnly ← eatTypeClause
      let inner ← importEquals t typeOnly
      return ← tree s (.exportDecl inner)
  require (← atDeclaration)
  if (← atWord "class") || (← atMark "@") then
    let t ← start
    let inner ← decorators sub
    if (← typed) && (← atWord "abstract") then advance
    let value ← classRest sub t ⟨true, false⟩ false (decorated ++ inner)
    tree s (.exportDecl value)
  else
    let value ← statement sub false
    tree s (.exportDecl value)

/-- A statement of any kind. -/
def anyStatement (sub : Grammar) (alone : Bool) : Parse Node := do
  match ← token with
  | .word "import" false =>
    if ← follows fun t => t == .mark "(" || t == .mark "." then statement sub alone
    else importStatement
  | .word "export" false => exportStatement sub []
  | .mark "@" =>
    let decorated ← attempt do
      let items ← decorators sub
      require (← atWord "export")
      return items
    match decorated with
    | some items => exportStatement sub items
    | none => statement sub alone
  | _ => statement sub alone

end DepBundle.Syntax.Grammar
