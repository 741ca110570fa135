import DepBundle.Syntax.Grammar.Markup
import DepBundle.Syntax.Target
/-!
# Grammar — expressions

Expressions from the tightest to the loosest: what stands by itself, what
is selected and called, one operand, operands with operators between them,
and assignments.
-/

namespace DepBundle.Syntax.Grammar

open Parse

/-- Reading `p` where brackets shut out what the surroundings forbid. -/
def enclosed {α : Type} (p : Parse α) : Parse α :=
  within (fun c => { c with allowsIn := true, isDecorator := false, allowsResult := true }) p

/-! ## What stands by itself -/

/-- A spread item, or an item. A comma that follows the last spread item is
remembered. -/
def spreadItem (sub : Grammar) : Parse Node := do
  let s ← start
  if ← eatMark "..." then
    let value ← sub .assignment
    if ← atMark "," then modify fun place => { place with trailing := s :: place.trailing }
    tree s (.spread value)
  else sub .assignment

/-- An item of an array. -/
def arrayItem (sub : Grammar) : Parse Node := do
  let s ← start
  if ← atMark "," then return ⟨⟨s, s⟩, .hole⟩ else spreadItem sub

/-- The role of the method in view, its keyword being passed. -/
def accessorRole : Parse MethodRole := do
  if (← atWord "get") && (← follows beginsKey) then advance; return .getter
  else if (← atWord "set") && (← follows beginsKey) then advance; return .setter
  else return .plain

/-- A member of an object. A default after a name has no meaning unless the
object turns out to be a pattern. -/
def objectMember (sub : Grammar) : Parse Node := do
  let s ← start
  if ← atMark "..." then return ← spreadItem sub
  let isAsync ← if (← atWord "async")
      && (← followsHere fun t => beginsKey t || t == .mark "*") then advance; pure true
    else pure false
  let isGenerator ← eatMark "*"
  let role ← if isAsync || isGenerator then pure .plain else accessorRole
  if !isAsync && !isGenerator && role == .plain && isWord (← token)
      && !(← follows fun t => t == .mark ":" || t == .mark "(" || t == .mark "<") then
    let name ← referenceName
    if ← eatMark "=" then
      let value ← sub .assignment
      modify fun place => { place with pending := s :: place.pending }
      let value ← tree s (.defaulted name value)
      tree s (.shorthand value)
    else tree s (.shorthand name)
  else
    let (computed, key) ← propertyKey sub
    if isAsync || isGenerator || role != .plain || (← atMark "(")
        || ((← typed) && (← atMark "<")) then
      let value ← methodFunction sub role isAsync isGenerator
      tree s (.method ⟨role, false, computed⟩ [] key value)
    else
      expectMark ":"
      let value ← sub .assignment
      tree s (.property computed key value)

/-- The pieces of a template and the values between them. Unless it is
`tagged`, each piece has to spell something. -/
def templateParts (sub : Grammar) (tagged : Bool) : Parse (List String × List Node) := do
  go (← get).limit
where
  go : Nat → Parse (List String × List Node)
    | 0 => refuse
    | n + 1 => do
      match ← token with
      | .piece text last =>
        require (tagged || (cooked? text).isSome)
        advance
        if last then return ([text], [])
        let value ← enclosed (sub .expression)
        require (← atMark "\x7d")
        reread pieceLexeme
        let (texts, values) ← go n
        return (text :: texts, value :: values)
      | _ => refuse

/-- A template. -/
def template (sub : Grammar) (tagged : Bool) : Parse Node := do
  let s ← start
  let (texts, values) ← templateParts sub tagged
  tree s (.template texts values)

/-- What is passed to a function. -/
def arguments (sub : Grammar) : Parse (List Node) :=
  enclosed do return (← bracketed "(" ")" (spreadItem sub)).1

/-- An expression in parentheses. -/
def paren (sub : Grammar) : Parse Node := do
  let s ← start
  expectMark "("
  let value ← enclosed (sub .expression)
  expectMark ")"
  tree s (.paren value)

/-- `import.meta` and `import()`. -/
def importValue (sub : Grammar) : Parse Node := do
  let s ← start
  expectWord "import"
  if ← eatMark "." then
    if ← eatWord "meta" then return ← tree s (.metaProperty "import" "meta")
    if !(← eatWord "source") then expectWord "defer"
  let (args, _) ← enclosed (bracketed "(" ")" (sub .assignment))
  match args with
  | [source] => tree s (.importCall source none)
  | [source, options] => tree s (.importCall source (some options))
  | _ => refuse

/-- What stands by itself and begins with a word. -/
def primaryWord (sub : Grammar) (w : String) : Parse Node := do
  let s ← start
  match w with
  | "this" => advance; tree s .thisValue
  | "null" => advance; tree s .null
  | "true" => advance; tree s (.boolean true)
  | "false" => advance; tree s (.boolean false)
  | "class" => classRest sub s ⟨false, false⟩ true []
  | "super" =>
    advance
    require ((← atMark ".") || (← atMark "(") || (← atMark "["))
    tree s .superValue
  | "import" => importValue sub
  | _ => referenceName

/-- An expression that is all of one piece. -/
def primary (sub : Grammar) : Parse Node := do
  let s ← start
  if ← atFunction then return ← function sub .expression true
  match ← token with
  | .word w false => primaryWord sub w
  | .word _ true => referenceName
  | .string _ _ _ => string
  | .number text => advance; tree s (.number text)
  | .bigint text => advance; tree s (.bigint text)
  | .piece _ _ => template sub false
  | .mark "/" | .mark "/=" =>
    reread regexLexeme
    match ← token with
    | .regex text => advance; tree s (.regex text)
    | _ => refuse
  | .mark "[" =>
    let (items, _) ← enclosed (bracketed "[" "]" (arrayItem sub))
    tree s (.array items)
  | .mark "\x7b" =>
    let (members, _) ← enclosed (bracketed "\x7b" "\x7d" (objectMember sub))
    tree s (.object members)
  | .mark "(" => paren sub
  | .mark "@" =>
    let decorators ← decorators sub
    classRest sub s ⟨false, false⟩ true decorators
  | .mark "<" =>
    require (← get).dialect.markup
    let node ← sub .element
    closeAngle
    return node
  | _ => refuse

/-! ## What is selected and called -/

/-- Whether types in angle brackets may end before a token that is on a
new line or not. -/
def mayFollowTypes (fresh : Bool) : Token → Bool
  | .mark m => !(["<", ">", "+", "-"].contains m)
      && (fresh || !(["[", "\x7b", "!", "~", "++", "--", "@"].contains m))
  | .piece _ _ => true
  | .word w _ => fresh || w == "in" || w == "instanceof" || w == "as" || w == "satisfies"
  | .finish => true
  | _ => fresh

/-- The name after a point. -/
def selectedName : Parse Node := do
  match ← token with
  | .privateWord _ => privateName
  | _ => anyWord

/-- The subscript after an opening bracket. -/
def subscript (sub : Grammar) : Parse Node := do
  let value ← enclosed (sub .expression)
  expectMark "]"
  return value

/-- What follows an expression `e` begun at `s`: selections and, where
`calls`, calls. `chained` says whether there is an optional link so far,
and so does the answer for all of it. -/
def links (sub : Grammar) (calls : Bool) (s : Nat) :
    Nat → Node → (chained : Bool) → Parse (Node × Bool)
  | 0, _, _ => refuse
  | n + 1, e, chained => do
    match ← token with
    | .mark "." =>
      advance
      let name ← selectedName
      links sub calls s n (← tree s (.member false e name)) chained
    | .mark "?." =>
      if !calls && (← follows (· == .mark "(")) then return (e, chained)
      advance
      match ← token with
      | .mark "[" =>
        advance
        let value ← subscript sub
        links sub calls s n (← tree s (.index true e value)) true
      | .mark "(" =>
        let args ← arguments sub
        links sub calls s n (← tree s (.call true e none args)) true
      | .mark "<" =>
        require (← typed)
        let types ← typeArgs sub
        let args ← arguments sub
        links sub calls s n (← tree s (.call true e (some types) args)) true
      | _ =>
        let name ← selectedName
        links sub calls s n (← tree s (.member true e name)) true
    | .mark "[" =>
      if (← get).context.isDecorator then return (e, chained)
      advance
      let value ← subscript sub
      links sub calls s n (← tree s (.index false e value)) chained
    | .piece _ _ =>
      require !chained
      let quasi ← template sub true
      links sub calls s n (← tree s (.taggedTemplate e none quasi)) chained
    | .mark "(" =>
      if !calls then return (e, chained)
      let args ← arguments sub
      links sub calls s n (← tree s (.call false e none args)) chained
    | .mark "!" =>
      if !(← typed) || (← onNewLine) then return (e, chained)
      advance
      links sub calls s n (← tree s (.nonNull e)) chained
    | .mark m =>
      if !((m == "<" || m == "<<") && (← typed)) then return (e, chained)
      let found ← attempt do
        let types ← typeArgs sub
        require (mayFollowTypes (← onNewLine) (← token))
        return types
      match found with
      | none => return (e, chained)
      | some types =>
        match ← token with
        | .mark "(" =>
          if !calls then return (← tree s (.instantiation e types), chained)
          let args ← arguments sub
          links sub calls s n (← tree s (.call false e (some types) args)) chained
        | .piece _ _ =>
          require !chained
          let quasi ← template sub true
          links sub calls s n (← tree s (.taggedTemplate e (some types) quasi)) chained
        | _ => links sub calls s n (← tree s (.instantiation e types)) chained
    | _ => return (e, chained)

/-- An expression with what is selected from it, without calls. -/
def memberChain (sub : Grammar) (s : Nat) (e : Node) : Parse (Node × Bool) := do
  links sub false s (← get).limit e false

/-- `new`, from the outermost one in. -/
def construct (sub : Grammar) : Parse Node := do
  go (← get).limit
where
  go : Nat → Parse Node
    | 0 => refuse
    | n + 1 => do
      let s ← start
      expectWord "new"
      if ← eatMark "." then
        expectWord "target"
        return ← tree s (.metaProperty "new" "target")
      let t ← start
      let head ← if ← atWord "new" then go n else primary sub
      let (callee, chained) ← memberChain sub t head
      let (callee, types) := match callee.shape with
        | .instantiation e types => (e, some types)
        | _ => (callee, none)
      let args ← if ← atMark "(" then arguments sub else pure []
      require !chained
      match callee.shape with
      | .importCall _ _ => refuse
      | _ => tree s (.construct callee types args)

/-- An expression with what is selected from it and called. -/
def leftHand (sub : Grammar) : Parse Node := do
  let s ← start
  let head ← if ← atWord "new" then construct sub else primary sub
  let (e, chained) ← links sub true s (← get).limit head false
  if !chained then return e
  match e.shape with
  | .call _ _ _ _ | .member _ _ _ | .index _ _ _ | .nonNull _ => tree s (.chain e)
  | _ => return e

/-! ## One operand -/

/-- The target that an expression stands for; where `simple`, one that is
no pattern. -/
def target (simple : Bool) (e : Node) : Parse Node := do
  match e.target? (← get).trailing with
  | none => refuse
  | some (target, members) =>
    require !(simple && e.isLiteralPattern)
    modify fun place => { place with pending := place.pending.filter (!members.contains ·) }
    return target

/-- Whether a token after `await` or `yield` on the same line can only be
its operand. -/
def isOperand : Token → Bool
  | .word w _ => w != "in" && w != "instanceof"
  | .string _ _ _ | .number _ | .bigint _ => true
  | _ => false

/-- Operators before an operand. -/
def unaryOperator : Token → Option String
  | .word w false => if ["typeof", "void", "delete"].contains w then some w else none
  | .mark m => if ["+", "-", "~", "!"].contains m then some m else none
  | _ => none

/-- The type a value is taken to be of, or the word that it is constant. -/
def assertedType (sub : Grammar) : Parse Node := do
  let s ← start
  if ← eatWord "const" then tree s (.typeParts []) else sub .type

/-- An operand with the operators around it. -/
def unary (sub : Grammar) : Parse Node := do
  let s ← start
  let t ← token
  if let some op := unaryOperator t then
    advance
    let value ← sub .unary
    require !(← atMark "**")
    return ← tree s (.unary op value)
  if ← atWord "await" then
    if (← get).context.isAsync then
      advance
      let value ← sub .unary
      require !(← atMark "**")
      return ← tree s (.await value)
    require !(← followsHere isOperand)
  if (t == .mark "<") && (← typed) && !(← get).dialect.markup then
    advance
    let type ← assertedType sub
    closeAngle
    let value ← sub .unary
    require !(← atMark "**")
    return ← tree s (.typeAssertion type value)
  if t == .mark "++" || t == .mark "--" then
    advance
    let value ← target true (← sub .unary)
    return ← tree s (.update true (if t == .mark "++" then "++" else "--") value)
  let e ← sub .leftHand
  for op in ["++", "--"] do
    if (← atMark op) && !(← onNewLine) then
      let e ← target true e
      advance
      return ← tree s (.update false op e)
  return e

/-! ## Operators between operands -/

/-- How tightly an operator binds: the tighter, the larger. -/
def binding : Token → Option (String × Nat)
  | .mark m =>
    match m with
    | "??" => some (m, 1)
    | "||" => some (m, 2)
    | "&&" => some (m, 3)
    | "|" => some (m, 4)
    | "^" => some (m, 5)
    | "&" => some (m, 6)
    | "==" | "!=" | "===" | "!==" => some (m, 7)
    | "<" | ">" | "<=" | ">=" => some (m, 8)
    | "<<" | ">>" | ">>>" => some (m, 9)
    | "+" | "-" => some (m, 10)
    | "*" | "/" | "%" => some (m, 11)
    | "**" => some (m, 12)
    | _ => none
  | .word w false => if w == "in" || w == "instanceof" then some (w, 8) else none
  | _ => none

/-- Whether an operand of `??` may not be without parentheses. -/
def isMixed (e : Node) : Bool :=
  match e.shape with
  | .binary op _ _ => op == "||" || op == "&&"
  | _ => false

/-- The operators that follow an operand and bind tighter than `above`. -/
def operandsRest (sub : Grammar) (above s : Nat) : Nat → Node → Parse Node
  | 0, _ => refuse
  | n + 1, left => do
    for w in ["as", "satisfies"] do
      if (← typed) && above < 8 && (← atWord w) && !(← onNewLine) then
        advance
        let type ← assertedType sub
        return ← operandsRest sub above s n (← tree s (.asType left type))
    match binding (← token) with
    | none => return left
    | some (op, level) =>
      if level < above || (level == above && op != "**") then return left
      if op == "in" && !(← get).context.allowsIn then return left
      advance
      let right ← sub (.operands level)
      require !(op == "??" && (isMixed left || isMixed right))
      operandsRest sub above s n (← tree s (.binary op left right))

/-- Operands with operators between them that bind tighter than `above`. A
private name is an operand of `in` only. -/
def operands (sub : Grammar) (above : Nat) : Parse Node := do
  let s ← start
  let left ← match ← token with
    | .privateWord _ =>
      let name ← privateName
      require ((← get).context.allowsIn && above < 8 && (← atWord "in"))
      pure name
    | _ => sub .unary
  operandsRest sub above s (← get).limit left

/-! ## Assignments -/

/-- Operators that assign. -/
def assignOperators : List String :=
  ["=", "+=", "-=", "*=", "/=", "%=", "**=", "<<=", ">>=", ">>>=", "&=", "|=", "^=", "&&=", "||=",
   "??="]

/-- `yield` with what it yields. -/
def yieldValue (sub : Grammar) : Parse Node := do
  let s ← start
  expectWord "yield"
  if ← onNewLine then return ← tree s (.yield false none)
  if ← eatMark "*" then
    let value ← sub .assignment
    return ← tree s (.yield true (some value))
  match ← token with
  | .finish | .mark ";" | .mark "\x7d" | .mark ")" | .mark "]" | .mark ":" | .mark ","
  | .word "in" false => tree s (.yield false none)
  | _ =>
    let value ← sub .assignment
    tree s (.yield false (some value))

/-- The choice between two values that may follow its test. -/
def conditionalRest (sub : Grammar) (s : Nat) (test : Node) : Parse Node := do
  if !(← eatMark "?") then return test
  let branch (allowsResult : Bool) : Parse Node := do
    let yes ← within (fun c => { c with allowsIn := true, allowsResult := allowsResult })
      (sub .assignment)
    expectMark ":"
    return yes
  let yes ← match ← attempt (branch true) with
    | some yes => pure yes
    | none => branch false
  let no ← sub .assignment
  tree s (.conditional test yes no)

/-- Whether an arrow function of one name begins here. -/
def atSimpleArrow : Parse Bool := do
  if isName (← token) && (← follows (· == .mark "=>")) then return true
  if ← atWord "async" then
    return ← foresee do
      advance
      require (!(← onNewLine) && isName (← token))
      advance
      atMark "=>"
  return false

/-- Whether the parameters of an arrow function may begin here with those
that stand for types. Where there are elements, the first of these has to
show that it is no tag. -/
def atTypedArrow : Parse Bool := do
  if !((← typed) && (← atMark "<")) then return false
  if !(← get).dialect.markup then return true
  foresee do
    advance
    advance
    return (← atMark ",") || (← atWord "extends")

/-- An assignment, or whatever binds tighter. -/
def assignment (sub : Grammar) : Parse Node := do
  let s ← start
  if ← atWord "yield" then
    if (← get).context.isGenerator then return ← yieldValue sub
    require !(← followsHere isOperand)
  if ← atSimpleArrow then return ← simpleArrow sub
  if (← atMark "(") || (← atWord "async") || (← atTypedArrow) then
    if let some node ← attempt (arrow sub) then return node
  let left ← sub (.operands 0)
  match ← token with
  | .mark op =>
    if assignOperators.contains op then
      let place ← target (op != "=") left
      advance
      let value ← sub .assignment
      tree s (.assign op place value)
    else conditionalRest sub s left
  | _ => return left

/-- An expression: assignments with commas between them. -/
def expression (sub : Grammar) : Parse Node := do
  let s ← start
  let first ← sub .assignment
  if !(← atMark ",") then return first
  let more ← untilDone (do return !(← atMark ",")) do
    advance
    sub .assignment
  tree s (.sequence (first :: more))

end DepBundle.Syntax.Grammar
