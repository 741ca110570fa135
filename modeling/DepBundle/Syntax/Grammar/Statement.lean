import DepBundle.Syntax.Grammar.Expression
/-!
# Grammar — statements

Statements and declarations, apart from imports and exports. Where a
single statement is wanted some declarations may not stand.
-/

namespace DepBundle.Syntax.Grammar

open Parse

/-! ## Declarations -/

/-- One variable with its value. In a `declared` list, outside the head of
a loop, patterns and constants need one. -/
def declarator (sub : Grammar) (kind : VariableKind) (declared : Bool) : Parse Node := do
  let s ← start
  let target ← sub .pattern
  if (← typed) && !(← onNewLine) then let _ ← eatMark "!"
  let full ← annotated sub s target
  if ← eatMark "=" then
    let value ← sub .assignment
    tree s (.declarator full (some value))
  else
    let named := match target.shape with
      | .binding _ => true
      | _ => false
    let context := (← get).context
    require (!declared || context.isAmbient
      || (named && (kind == .varKind || kind == .letKind)))
    tree s (.declarator full none)

/-- Variables from the word that declares them on. -/
def variableList (sub : Grammar) (kind : VariableKind) (declared : Bool) : Parse Node := do
  let s ← start
  advance
  if kind == .awaitUsingKind then advance
  let first ← declarator sub kind declared
  let more ← untilDone (do return !(← atMark ",")) do
    advance
    declarator sub kind declared
  if declared then semicolon
  tree s (.declare kind (← get).context.isAmbient (first :: more))

/-- Whether a token may begin what is declared. -/
def beginsPattern (t : Token) : Bool := isName t || t == .mark "[" || t == .mark "\x7b"

/-- Whether a disposed variable is declared from the word in view on. -/
def atUsing : Parse Bool := do
  return (← atWord "using")
    && (← followsHere fun t => isName t && t != .word "of" false)

/-- The kind of variables declared here, `let` apart. -/
def variableKind? : Parse (Option VariableKind) := do
  if ← atWord "var" then return some .varKind
  if ← atWord "const" then return some .constKind
  if ← atUsing then return some .usingKind
  if (← atWord "await") && (← followsHere (· == .word "using" false)) then
    if ← foresee (do advance; atUsing) then return some .awaitUsingKind
  return none

/-! ## Loops and choices -/

/-- An expression in parentheses that belong to the statement. -/
def condition (sub : Grammar) : Parse Node := do
  expectMark "("
  let value ← sub .expression
  expectMark ")"
  return value

/-- Statements in braces. -/
def block (sub : Grammar) : Parse Node := do
  let s ← start
  expectMark "\x7b"
  let items ← untilDone (atMark "\x7d") (sub (.statement false))
  expectMark "\x7d"
  tree s (.block items)

/-- The rest of a loop with three parts, from its first semicolon on. -/
def loopRest (sub : Grammar) (s : Nat) (first : Option Node) : Parse Node := do
  expectMark ";"
  let test ← if ← atMark ";" then pure none else some <$> sub .expression
  expectMark ";"
  let update ← if ← atMark ")" then pure none else some <$> sub .expression
  expectMark ")"
  let body ← sub (.statement true)
  tree s (.forLoop first test update body)

/-- The rest of a loop over the items or the keys of a value. -/
def iterationRest (sub : Grammar) (s : Nat) (isAwait : Bool) (target : Node) : Parse Node := do
  if ← eatWord "of" then
    let items ← sub .assignment
    expectMark ")"
    let body ← sub (.statement true)
    tree s (.forOf isAwait target items body)
  else
    require !isAwait
    expectWord "in"
    let object ← sub .expression
    expectMark ")"
    let body ← sub (.statement true)
    tree s (.forIn target object body)

/-- What a loop begins with where it declares variables. -/
def loopVariables? (sub : Grammar) : Parse (Option Node) := do
  let kind ← if (← atWord "let") && (← follows beginsPattern)
      && !((← follows (· == .word "of" false)) && !(← foresee do
        advance; advance
        return (← atMark "=") || (← atMark ";") || (← atMark ",") || (← atWord "of")
          || (← atWord "in"))) then
      pure (some .letKind)
    else variableKind?
  match kind with
  | none => return none
  | some kind =>
    some <$> within (fun c => { c with allowsIn := false }) (variableList sub kind false)

/-- A loop. -/
def loop (sub : Grammar) : Parse Node := do
  let s ← start
  expectWord "for"
  let isAwait ← if (← atWord "await") && (← get).context.isAsync then advance; pure true
    else pure false
  expectMark "("
  if ← atMark ";" then
    require !isAwait
    return ← loopRest sub s none
  if let some declared ← loopVariables? sub then
    if (← atWord "of") || (← atWord "in") then
      return ← iterationRest sub s isAwait declared
    require !isAwait
    return ← loopRest sub s (some declared)
  let bare := (← atWord "let") && (← follows (· == .word "of" false))
  let early := (← atWord "async") && (← follows (· == .word "of" false)) && !isAwait
  let first ← within (fun c => { c with allowsIn := false }) (sub .expression)
  if (← atWord "of") || (← atWord "in") then
    require (!bare && !early)
    iterationRest sub s isAwait (← target false first)
  else
    require !isAwait
    loopRest sub s (some first)

/-- `if`. -/
def choose (sub : Grammar) : Parse Node := do
  let s ← start
  expectWord "if"
  let test ← condition sub
  let yes ← sub (.statement true)
  let no ← if ← eatWord "else" then some <$> sub (.statement true) else pure none
  tree s (.choose test yes no)

/-- One case of a `switch`. -/
def case (sub : Grammar) : Parse Node := do
  let s ← start
  let test ← if ← eatWord "default" then pure none
    else (do expectWord "case"; return some (← sub .expression))
  expectMark ":"
  let done : Parse Bool := do
    return (← atWord "case") || (← atWord "default") || (← atMark "\x7d")
  let items ← untilDone done (sub (.statement false))
  tree s (.case test items)

/-- What is done with what was thrown. -/
def handler (sub : Grammar) : Parse Node := do
  let s ← start
  expectWord "catch"
  let target ← if ← eatMark "(" then
      let t ← start
      let target ← annotated sub t (← sub .pattern)
      expectMark ")"
      pure (some target)
    else pure none
  let body ← block sub
  tree s (.handler target body)

/-- `try`. -/
def attempted (sub : Grammar) : Parse Node := do
  let s ← start
  expectWord "try"
  let body ← block sub
  let handler ← if ← atWord "catch" then some <$> handler sub else pure none
  let finalizer ← if ← eatWord "finally" then some <$> block sub else pure none
  require (handler.isSome || finalizer.isSome)
  tree s (.attempt body handler finalizer)

/-- A way out of a loop, perhaps to a label. -/
def jump (shape : Option Node → Shape Node) : Parse Node := do
  let s ← start
  advance
  let label ← if ← mayEnd then pure none else some <$> labelName
  semicolon
  tree s (shape label)

/-! ## Declarations of types -/

/-- The declaration of a type by what it stands for. -/
def typeAlias (sub : Grammar) : Parse Node := do
  let s ← start
  expectWord "type"
  let name ← bindingName
  let params ← typeParams sub
  expectMark "="
  let type ← sub .type
  semicolon
  tree s (.typeDecl name (params.toList ++ [type]))

/-- An interface. -/
def interface (sub : Grammar) : Parse Node := do
  let s ← start
  expectWord "interface"
  let name ← bindingName
  let params ← typeParams sub
  let parents ← if ← eatWord "extends" then (·.1) <$> commaList (atMark "\x7b") (sub .type)
    else pure []
  let members ← typeMembers sub
  tree s (.typeDecl name (params.toList ++ parents ++ members))

/-- A member of an enumeration. -/
def enumMember (sub : Grammar) : Parse Node := do
  let s ← start
  let (_, key) ← propertyKey sub
  let value ← if ← eatMark "=" then some <$> sub .assignment else pure none
  tree s (.enumMember key value)

/-- An enumeration. -/
def enumeration (sub : Grammar) : Parse Node := do
  let s ← start
  let _ ← eatWord "const"
  expectWord "enum"
  let name ← bindingName
  let (members, _) ← bracketed "\x7b" "\x7d" (enumMember sub)
  tree s (.enumDecl (← get).context.isAmbient name members)

/-- The body of a namespace. -/
def namespaceBody (sub : Grammar) : Parse Node := do
  let s ← start
  expectMark "\x7b"
  let items ← untilDone (atMark "\x7d") (sub (.statement false))
  expectMark "\x7d"
  tree s (.namespaceBody items)

/-- A namespace from its name on. Names with points between them are
namespaces inside one another. -/
def namespaceRest (sub : Grammar) : Nat → Nat → Parse Node
  | 0, _ => refuse
  | n + 1, s => do
    let name ← match ← token with
      | .string _ _ _ => string
      | _ => bindingName
    let isAmbient := (← get).context.isAmbient
    if ← eatMark "." then
      let t ← start
      let inner ← namespaceRest sub n t
      tree s (.namespaceDecl isAmbient name (some inner))
    else if ← atMark "\x7b" then
      let body ← namespaceBody sub
      tree s (.namespaceDecl isAmbient name (some body))
    else
      semicolon
      tree s (.namespaceDecl isAmbient name none)

/-- Whether the declaration in view exists where there are types only. -/
def atTypeDeclaration : Parse Bool := do
  if !(← typed) then return false
  match ← token with
  | .word "type" false | .word "interface" false => followsHere isName
  | .word "namespace" false => followsHere isName
  | .word "module" false => followsHere fun t => isName t || (match t with
      | .string _ _ _ => true
      | _ => false)
  | .word "global" false => followsHere (· == .mark "\x7b")
  | .word "enum" false => follows isName
  | .word "const" false => follows (· == .word "enum" false)
  | .word "abstract" false => followsHere (· == .word "class" false)
  | .word "declare" false => followsHere fun t => isWord t
      && ["var", "let", "const", "function", "async", "class", "abstract", "type", "interface",
          "enum", "namespace", "module", "global", "import"].any fun w => t == .word w false
  | _ => return false

/-- A declaration with `declare` before it, begun at `s`. -/
def ambient (sub : Grammar) (s : Nat) : Parse Node := do
  let inner ← within (fun c => { c with isAmbient := true }) (sub (.statement false))
  match inner.shape with
  | .classDef flags decorators name types parent interfaces members =>
    return ⟨⟨s, inner.span.stop⟩,
      .classDef { flags with isAmbient := true } decorators name types parent interfaces members⟩
  | shape => return ⟨⟨s, inner.span.stop⟩, shape⟩

/-- A declaration that exists where there are types only. -/
def typeDeclaration (sub : Grammar) : Parse Node := do
  let s ← start
  match ← token with
  | .word "type" _ => typeAlias sub
  | .word "interface" _ => interface sub
  | .word "global" _ =>
    let name ← anyWord
    let body ← namespaceBody sub
    tree s (.namespaceDecl true name (some body))
  | .word "namespace" _ | .word "module" _ => advance; namespaceRest sub (← get).limit s
  | .word "abstract" _ => advance; classRest sub s ⟨true, false⟩ false []
  | .word "declare" _ => advance; ambient sub s
  | _ => enumeration sub

/-! ## Statements -/

/-- An expression as a statement, or a statement with a label. -/
def plainStatement (sub : Grammar) : Parse Node := do
  let s ← start
  let value ← sub .expression
  match value.shape with
  | .reference label =>
    if ← eatMark ":" then
      let body ← sub (.statement true)
      tree s (.labeled ⟨value.span, .word label⟩ body)
    else
      semicolon
      tree s (.expression value)
  | _ =>
    semicolon
    tree s (.expression value)

/-- A statement that begins with `let`, which declares variables unless it
is a name. -/
def letStatement (sub : Grammar) (alone : Bool) : Parse Node := do
  let following ← foresee do
    advance
    let t ← token
    return (binding t).isSome || t == .mark "." || t == .mark "(" || t == .mark ";"
      || (match t with
        | .mark m => assignOperators.contains m
        | _ => false)
      || (alone && t != .mark "[")
  if following then plainStatement sub
  else
    require !alone
    variableList sub .letKind true

/-- A statement that begins with a keyword. -/
def keywordStatement (sub : Grammar) (alone : Bool) (w : String) : Parse Node := do
  let s ← start
  match w with
  | "if" => choose sub
  | "for" => loop sub
  | "while" =>
    advance
    let test ← condition sub
    tree s (.whileLoop test (← sub (.statement true)))
  | "do" =>
    advance
    let body ← sub (.statement true)
    expectWord "while"
    let test ← condition sub
    let _ ← eatMark ";"
    tree s (.doWhile body test)
  | "switch" =>
    advance
    let subject ← condition sub
    expectMark "\x7b"
    let cases ← untilDone (atMark "\x7d") (case sub)
    expectMark "\x7d"
    tree s (.switch subject cases)
  | "try" => attempted sub
  | "throw" =>
    advance
    require !(← onNewLine)
    let value ← sub .expression
    semicolon
    tree s (.throws value)
  | "return" =>
    require (← get).context.isFunction
    advance
    let value ← if ← mayEnd then pure none else some <$> sub .expression
    semicolon
    tree s (.returns value)
  | "break" => jump .breakTo
  | "continue" => jump .continueTo
  | "with" =>
    advance
    let object ← condition sub
    tree s (.withObject object (← sub (.statement true)))
  | "debugger" => advance; semicolon; tree s .debugger
  | "class" => require !alone; classRest sub s ⟨true, false⟩ false []
  | "let" => letStatement sub alone
  | _ => plainStatement sub

/-- A statement other than an import or an export. -/
def statement (sub : Grammar) (alone : Bool) : Parse Node := do
  let s ← start
  match ← token with
  | .mark "\x7b" => block sub
  | .mark ";" => advance; tree s .empty
  | .mark "@" =>
    require !alone
    let decorators ← decorators sub
    if (← typed) && (← atWord "abstract") then advance
    let t := s
    classRest sub t ⟨true, false⟩ false decorators
  | .word w false =>
    if ← atTypeDeclaration then return ← typeDeclaration sub
    if ← atFunction then
      let node ← function sub .declaration false
      match node.shape with
      | .function flags _ _ _ _ _ => require !(alone && (flags.isAsync || flags.isGenerator))
      | _ => pure ()
      return node
    if let some kind ← variableKind? then
      require !(alone && kind != .varKind)
      return ← variableList sub kind true
    keywordStatement sub alone w
  | _ => plainStatement sub

end DepBundle.Syntax.Grammar
