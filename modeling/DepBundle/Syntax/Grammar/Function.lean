import DepBundle.Syntax.Grammar.Pattern
/-!
# Grammar — functions

Functions from their parameters to their bodies. The parameters and the
body of a function are read in its own surroundings.
-/

namespace DepBundle.Syntax.Grammar

open Parse

/-- Decorators, perhaps none. -/
def decorators (sub : Grammar) : Parse (List Node) :=
  untilDone (do return !(← atMark "@")) do
    let s ← start
    expectMark "@"
    let value ← within (fun c => { c with isDecorator := true }) (sub .leftHand)
    tree s (.decorator value)

/-- Words before a parameter that make it a field as well. -/
def parameterModifiers : List String := ["public", "private", "protected", "readonly", "override"]

/-- Whether such words stand before the parameter in view, which are then
passed. -/
def eatModifiers : Parse Bool := do
  go 4
where
  go : Nat → Parse Bool
    | 0 => return false
    | n + 1 => do
      match ← token with
      | .word w false =>
        if parameterModifiers.contains w
            && (← follows fun t => isName t || t == .mark "[" || t == .mark "\x7b") then
          advance
          let _ ← go n
          return true
        else return false
      | _ => return false

/-- A parameter. What takes the rest comes last. -/
def param (sub : Grammar) : Parse Node := do
  let s ← start
  let decorators ← decorators sub
  if (← typed) && (← atWord "this") then
    advance
    let type ← annotation sub
    return ← tree s (.typeParts type.toList)
  let assigns ← if ← typed then eatModifiers else pure false
  let t ← start
  if ← eatMark "..." then
    let u ← start
    let target ← annotated sub u (← sub .pattern)
    let target ← tree t (.rest target)
    require (← atMark ")")
    tree s (.param assigns decorators target)
  else
    let target ← sub .pattern
    if ← typed then let _ ← eatMark "?"
    let target ← annotated sub t target
    let target ← withDefault sub t target
    tree s (.param assigns decorators target)

/-- The parameters of a function. -/
def params (sub : Grammar) : Parse Node := do
  let s ← start
  let (items, _) ← within (fun c => { c with allowsIn := true, isDecorator := false, allowsResult := true })
    (bracketed "(" ")" (param sub))
  tree s (.params items)

/-- Statements until `done`, those at their head that are mere strings
being directives. -/
def statements (sub : Grammar) (done : Parse Bool) : Parse (List Node) := do
  go (← get).limit true
where
  go : Nat → Bool → Parse (List Node)
    | 0, _ => refuse
    | n + 1, directives => do
      if ← done then return []
      let t ← token
      let statement ← sub (.statement false)
      match t, statement.shape with
      | .string _ text _, .expression ⟨_, .string _⟩ =>
        if directives then return ⟨statement.span, .directive text⟩ :: (← go n true)
        else return statement :: (← go n false)
      | _, _ => return statement :: (← go n false)

/-- The body of a function. -/
def functionBody (sub : Grammar) (isAsync isGenerator : Bool) : Parse Node := do
  let s ← start
  within (fun c => { c with
      allowsIn := true, isAsync := isAsync, isGenerator := isGenerator, isFunction := true
      isDecorator := false, allowsResult := true }) do
    expectMark "\x7b"
    let items ← statements sub (atMark "\x7d")
    expectMark "\x7d"
    tree s (.body items)

/-- A function from its parameters on. Where types may be written the body
may be left out. -/
def functionRest (sub : Grammar) (flags : FunctionFlags) (s : Nat) (name : Option Node) :
    Parse Node := do
  let own := fun (c : Context) =>
    { c with isAsync := flags.isAsync, isGenerator := flags.isGenerator }
  let types ← typeParams sub
  let params ← within own (params sub)
  let result ← resultAnnotation sub
  if (← typed) && !(← atMark "\x7b") then
    semicolon
    tree s (.function flags name types params result none)
  else
    let body ← functionBody sub flags.isAsync flags.isGenerator
    tree s (.function flags name types params result (some body))

/-- Whether a function begins at the token in view. -/
def atFunction : Parse Bool := do
  if ← atWord "function" then return true
  return (← atWord "async") && (← followsHere (· == .word "function" false))

/-- A function that begins with its keyword. A declaration has a name
unless `nameless` allows it to do without. -/
def function (sub : Grammar) (role : FunctionRole) (nameless : Bool) : Parse Node := do
  let s ← start
  let isAsync ← eatWord "async"
  expectWord "function"
  let isGenerator ← eatMark "*"
  let inside := fun (c : Context) =>
    if role == .expression then { c with isAsync := isAsync, isGenerator := isGenerator } else c
  let name ← if isName (← token) then some <$> within inside bindingName else pure none
  require (nameless || name.isSome)
  functionRest sub ⟨role, isAsync, isGenerator⟩ s name

/-- The body of an arrow function. -/
def arrowBody (sub : Grammar) (isAsync : Bool) : Parse Node := do
  let own := fun (c : Context) =>
    { c with isAsync := isAsync, isGenerator := false, isDecorator := false }
  if ← atMark "\x7b" then functionBody sub isAsync false else within own (sub .assignment)

/-- The arrow of an arrow function, on the line of its parameters, and the
body. -/
def arrowRest (sub : Grammar) (isAsync : Bool) : Parse Node := do
  require !(← onNewLine)
  expectMark "=>"
  arrowBody sub isAsync

/-- An arrow function of one name. -/
def simpleArrow (sub : Grammar) : Parse Node := do
  let s ← start
  let isAsync ← if (← atWord "async") && (← followsHere isName) then advance; pure true
    else pure false
  let t ← start
  let name ← within (fun c => { c with isAsync := c.isAsync || isAsync }) bindingName
  let param ← tree t (.param false [] name)
  let params ← tree t (.params [param])
  let body ← arrowRest sub isAsync
  tree s (.arrow isAsync none params none body)

/-- An arrow function whose parameters are in parentheses. -/
def arrow (sub : Grammar) : Parse Node := do
  let s ← start
  let isAsync ← if (← atWord "async")
      && (← followsHere fun t => t == .mark "(" || t == .mark "<") then advance; pure true
    else pure false
  let types ← typeParams sub
  let params ← within (fun c => { c with isAsync := c.isAsync || isAsync }) (params sub)
  let result ← if (← get).context.allowsResult then resultAnnotation sub else pure none
  let body ← arrowRest sub isAsync
  tree s (.arrow isAsync types params result body)

end DepBundle.Syntax.Grammar
