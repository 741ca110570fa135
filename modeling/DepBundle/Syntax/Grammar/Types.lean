import DepBundle.Syntax.Grammar.Function
/-!
# Grammar — types

Types are read for the names they refer to; how they are put together
beyond that is not kept. What a type names for itself stands in a scope of
its own.
-/

namespace DepBundle.Syntax.Grammar

open Parse

/-- A name with the names selected from it. -/
def qualifiedName : Parse Node := do
  let s ← start
  let head ← if ← atWord "this" then anyWord else referenceName
  go (← get).limit s head
where
  go : Nat → Nat → Node → Parse Node
    | 0, _, _ => refuse
    | n + 1, s, e => do
      if ← eatMark "." then
        let name ← anyWord
        go n s (← tree s (.typeParts [e, name]))
      else return e

/-- Types in angle brackets on the line of what they belong to, if there
are any. -/
def typeArgs? (sub : Grammar) : Parse (Option Node) := do
  if !(← onNewLine) && ((← atMark "<") || (← atMark "<<")) then some <$> typeArgs sub
  else return none

/-- A function type. -/
def functionType (sub : Grammar) : Parse Node := do
  let s ← start
  let _ ← eatWord "abstract"
  let _ ← eatWord "new"
  let types ← typeParams sub
  let params ← params sub
  expectMark "=>"
  let result ← resultType sub
  tree s (.typeScope (types.toList ++ [params, result]))

/-- An item of a tuple type. -/
def tupleItem (sub : Grammar) : Parse Node := do
  let s ← start
  let _ ← eatMark "..."
  let _ ← attempt do
    let _ ← anyWord
    let _ ← eatMark "?"
    expectMark ":"
  let type ← sub .type
  let _ ← eatMark "?"
  tree s (.typeParts [type])

/-- The parameters and the result of a signature. -/
def signature (sub : Grammar) (s : Nat) (key : List Node) : Parse Node := do
  let types ← typeParams sub
  let params ← params sub
  let result ← resultAnnotation sub
  tree s (.typeScope (key ++ types.toList ++ params :: result.toList))

/-- A signature of the properties of a given type. -/
def indexSignature (sub : Grammar) : Parse Node := do
  let s ← start
  expectMark "["
  let key ← bindingName
  let type ← annotation sub
  require type.isSome
  expectMark "]"
  let value ← annotation sub
  tree s (.typeScope (key :: type.toList ++ value.toList))

/-- A member of an object type. -/
def typeMember (sub : Grammar) : Parse Node := do
  let s ← start
  let member ← if (← atMark "(") || (← atMark "<") then signature sub s []
    else if (← atWord "new") && (← follows fun t => t == .mark "(" || t == .mark "<") then
      advance
      signature sub s []
    else
      for w in ["readonly", "get", "set"] do
        if (← atWord w) && (← follows beginsKey) then advance
      match ← attempt (indexSignature sub) with
      | some node => pure node
      | none =>
        let (computed, key) ← propertyKey sub
        let key := if computed then [key] else []
        let _ ← eatMark "?"
        if (← atMark "(") || (← atMark "<") then signature sub s key
        else
          let type ← annotation sub
          tree s (.typeParts (key ++ type.toList))
  if !(← eatMark ",") then semicolon
  return member

/-- A type made from the properties of another. -/
def mappedType (sub : Grammar) : Parse Node := do
  let s ← start
  expectMark "\x7b"
  let sign := do
    let _ ← eatMark "+"
    let _ ← eatMark "-"
  sign
  let _ ← eatWord "readonly"
  expectMark "["
  let key ← bindingName
  expectWord "in"
  let source ← sub .type
  let name ← if ← eatWord "as" then some <$> sub .type else pure none
  expectMark "]"
  sign
  let _ ← eatMark "?"
  let type ← annotation sub
  semicolon
  expectMark "\x7d"
  tree s (.typeScope (key :: source :: name.toList ++ type.toList))

/-- The members of an object type. -/
def typeMembers (sub : Grammar) : Parse (List Node) := do
  expectMark "\x7b"
  let members ← untilDone (atMark "\x7d") (typeMember sub)
  expectMark "\x7d"
  return members

/-- The types between the pieces of a template. -/
def templateTypes (sub : Grammar) : Parse (List Node) := do
  go (← get).limit
where
  go : Nat → Parse (List Node)
    | 0 => refuse
    | n + 1 => do
      match ← token with
      | .piece _ true => advance; return []
      | .piece _ false =>
        advance
        let type ← sub .type
        require (← atMark "\x7d")
        reread pieceLexeme
        return type :: (← go n)
      | _ => refuse

/-- Words that are types themselves. -/
def typeWords : List String :=
  ["any", "unknown", "never", "number", "string", "boolean", "symbol", "object", "bigint",
   "undefined", "void", "null", "true", "false", "intrinsic"]

/-- A type with nothing before or after it. -/
def primaryType (sub : Grammar) : Parse Node := do
  let s ← start
  match ← token with
  | .mark "(" =>
    advance
    let type ← sub .type
    expectMark ")"
    tree s (.typeParts [type])
  | .mark "[" =>
    let (items, _) ← bracketed "[" "]" (tupleItem sub)
    tree s (.typeParts items)
  | .mark "\x7b" =>
    match ← attempt (mappedType sub) with
    | some node => return node
    | none => tree s (.typeParts (← typeMembers sub))
  | .string _ _ _ | .number _ | .bigint _ => advance; tree s (.typeParts [])
  | .mark "-" =>
    advance
    match ← token with
    | .number _ | .bigint _ => advance; tree s (.typeParts [])
    | _ => refuse
  | .piece _ _ => tree s (.typeParts (← templateTypes sub))
  | .word w _ =>
    if w == "typeof" then
      advance
      if ← atWord "import" then return ← sub .type
      let name ← qualifiedName
      let args ← typeArgs? sub
      tree s (.typeParts (name :: args.toList))
    else if w == "this" then
      advance
      let type ← if !(← onNewLine) && (← atWord "is") then advance; some <$> sub .type
        else pure none
      tree s (.typeParts type.toList)
    else if w == "asserts" && (← followsHere isWord) then
      advance
      let _ ← anyWord
      let type ← if ← eatWord "is" then some <$> sub .type else pure none
      tree s (.typeParts type.toList)
    else if w == "import" then
      advance
      let (_, _) ← bracketed "(" ")" (sub .type)
      let _ ← untilDone (do return !(← atMark ".")) (do advance; anyWord)
      let args ← typeArgs? sub
      tree s (.typeParts args.toList)
    else if typeWords.contains w && !(← follows (· == .mark ".")) then
      advance
      tree s (.typeParts [])
    else
      let name ← qualifiedName
      let args ← typeArgs? sub
      tree s (.typeParts (name :: args.toList))
  | _ => refuse

/-- A type with the brackets that follow it. -/
def postfixType (sub : Grammar) : Parse Node := do
  let s ← start
  go (← get).limit s (← primaryType sub)
where
  go : Nat → Nat → Node → Parse Node
    | 0, _, _ => refuse
    | n + 1, s, e => do
      if !(← onNewLine) && (← atMark "[") then
        advance
        let parts ← if ← atMark "]" then pure [] else (do return [← sub .type])
        expectMark "]"
        go n s (← tree s (.typeParts (e :: parts)))
      else return e

/-- The bound of a type found by matching. Where a condition may follow,
what comes before a question mark is the condition and no bound. -/
def matchedBound (sub : Grammar) : Parse Node := do
  expectWord "extends"
  let bound ← within (fun c => { c with allowsConditional := false }) (sub .type)
  require (!(← get).context.allowsConditional || !(← atMark "?"))
  return bound

/-- A type with the words that stand before it. -/
def operatorType (sub : Grammar) : Parse Node := do
  let s ← start
  let _ ← untilDone (do return !(← atWord "keyof") && !(← atWord "unique") && !(← atWord "readonly"))
    advance
  if ← eatWord "infer" then
    let name ← bindingName
    let bound ← attempt (matchedBound sub)
    tree s (.typeParts (name :: bound.toList))
  else within (fun c => { c with allowsConditional := true }) (postfixType sub)

/-- Types with a mark between them, which may also stand before the first
one. -/
def joinedTypes (mark : String) (item : Parse Node) : Parse Node := do
  let s ← start
  let _ ← eatMark mark
  let first ← item
  let others ← untilDone (do return !(← atMark mark)) (do advance; item)
  if others.isEmpty then return first else tree s (.typeParts (first :: others))

/-- A type that is one of several. -/
def unionType (sub : Grammar) : Parse Node :=
  joinedTypes "|" (joinedTypes "&" (operatorType sub))

/-- Whether a parameter is in view, with what can only follow one: then a
bracket before it opens the parameters of a function. -/
def atParameter (sub : Grammar) : Parse Bool := do
  if (← atMark ")") || (← atMark "...") then return true
  let _ ← eatModifiers
  if (← atMark "[") || (← atMark "\x7b") then let _ ← sub .pattern
  else let _ ← anyWord
  match ← token with
  | .mark m =>
    if m == ")" then advance; atMark "=>"
    else return [":", ",", "?", "="].contains m
  | _ => return false

/-- Whether a function type begins here. -/
def atFunctionType (sub : Grammar) : Parse Bool := do
  if (← atMark "<") || (← atWord "new") then return true
  if ← atWord "abstract" then return ← follows (· == .word "new" false)
  if ← atMark "(" then return ← foresee (do advance; atParameter sub)
  return false

/-- A type. -/
def type (sub : Grammar) : Parse Node := do
  let s ← start
  if ← atFunctionType sub then functionType sub
  else
    let e ← unionType sub
    if (← get).context.allowsConditional && !(← onNewLine) && (← atWord "extends") then
      advance
      let bound ← within (fun c => { c with allowsConditional := false }) (sub .type)
      expectMark "?"
      let yes ← sub .type
      expectMark ":"
      let no ← sub .type
      tree s (.typeScope [e, bound, yes, no])
    else return e

end DepBundle.Syntax.Grammar
