import DepBundle.Syntax.Grammar.Types
/-!
# Grammar — classes

Classes and their members. A word before a member is a modifier only where
the member has a name beyond it.
-/

namespace DepBundle.Syntax.Grammar

open Parse

/-- How many parameters are values, and whether the last takes the rest. -/
def parameterCount (params : Node) : Nat × Bool :=
  match params.shape with
  | .params items =>
    let values := items.filterMap fun item =>
      match item.shape with
      | .param _ _ target => some target
      | _ => none
    (values.length, values.getLast?.any fun target =>
      match target.shape with
      | .rest _ => true
      | _ => false)
  | _ => (0, false)

/-- Whether a method has as many parameters as its role demands. -/
def takesItsParameters (role : MethodRole) (method : Node) : Bool :=
  match method.shape with
  | .function _ _ _ params _ _ =>
    match role with
    | .getter => (parameterCount params).1 == 0
    | .setter => parameterCount params == (1, false)
    | _ => true
  | _ => true

/-- The function of a method, from its parameters on. -/
def methodFunction (sub : Grammar) (role : MethodRole) (isAsync isGenerator : Bool) :
    Parse Node := do
  let s ← start
  let value ← functionRest sub ⟨.method, isAsync, isGenerator⟩ s none
  require (takesItsParameters role value)
  return value

/-- What stands before the name of a member. -/
structure MemberHead where
  isStatic : Bool := false
  isAccessor : Bool := false
  isAmbient : Bool := false
  isAsync : Bool := false
  role : MethodRole := .plain

/-- Words that say something about the type of a member only. -/
def memberModifiers : List String :=
  ["public", "private", "protected", "readonly", "override", "declare", "abstract"]

/-- The words before the name of a member. -/
def memberHead : Parse MemberHead := do
  go 8 {}
where
  beyond (t : Token) : Bool := beginsKey t || t == .mark "*"
  go : Nat → MemberHead → Parse MemberHead
    | 0, head => return head
    | n + 1, head => do
      match ← token with
      | .word "static" false =>
        if !head.isStatic && (← follows beyond) then
          advance
          go n { head with isStatic := true }
        else return head
      | .word "accessor" false =>
        if ← followsHere beginsKey then
          advance
          go n { head with isAccessor := true }
        else return head
      | .word "async" false =>
        if ← followsHere beyond then
          advance
          return { head with isAsync := true }
        else return head
      | .word "get" false =>
        if ← follows beginsKey then
          advance
          return { head with role := .getter }
        else return head
      | .word "set" false =>
        if ← follows beginsKey then
          advance
          return { head with role := .setter }
        else return head
      | .word w false =>
        if (← typed) && memberModifiers.contains w && (← followsHere beyond) then
          advance
          go n { head with isAmbient := head.isAmbient || w == "declare" || w == "abstract" }
        else return head
      | _ => return head

/-- The name outside brackets that a member has. -/
def keyText (computed : Bool) (key : Node) : Option String :=
  if computed then none
  else match key.shape with
    | .word w | .string w => some w
    | _ => none

/-- A member of a class. -/
def member (sub : Grammar) : Parse Node := do
  let s ← start
  let decorators ← decorators sub
  if (← atWord "static") && (← follows (· == .mark "\x7b")) then
    advance
    expectMark "\x7b"
    let items ← within (fun c => { c with
        allowsIn := true, isAsync := true, isGenerator := false, isFunction := false })
      (untilDone (atMark "\x7d") (sub (.statement false)))
    expectMark "\x7d"
    return ← tree s (.staticBlock items)
  let head ← memberHead
  if ← typed then
    if let some node ← attempt (do let node ← indexSignature sub; semicolon; return node) then
      return node
  let isGenerator ← eatMark "*"
  let (computed, key) ← memberKey sub
  let name := keyText computed key
  require !(head.isStatic && name == some "prototype")
  if ← typed then
    if !(← eatMark "?") then let _ ← eatMark "!"
  if (← atMark "(") || ((← typed) && (← atMark "<")) then
    let isConstructor := !head.isStatic && name == some "constructor"
    require !(isConstructor && (head.isAsync || isGenerator || head.role != .plain))
    let role := if isConstructor then .constructor else head.role
    let value ← methodFunction sub role head.isAsync isGenerator
    tree s (.method ⟨role, head.isStatic, computed⟩ decorators key value)
  else
    require (!head.isAsync && !isGenerator && head.role == .plain && name != some "constructor")
    let type ← annotation sub
    let value ← if ← eatMark "=" then
        some <$> within (fun c => { c with
          allowsIn := true, isAsync := false, isGenerator := false }) (sub .assignment)
      else pure none
    semicolon
    tree s (.field ⟨head.isStatic, computed, head.isAccessor, head.isAmbient⟩ decorators key type
      value)

/-- The members of a class. -/
def members (sub : Grammar) : Parse (List Node) := do
  expectMark "\x7b"
  let items ← untilDone (atMark "\x7d") do
    if ← eatMark ";" then return none else some <$> member sub
  expectMark "\x7d"
  return items.filterMap id

/-- The class that another one extends, perhaps with types for it. -/
def parentClass (sub : Grammar) : Parse Node := do
  let s ← start
  let value ← sub .leftHand
  if (← typed) && ((← atMark "<") || (← atMark "<<")) then
    let types ← typeArgs sub
    tree s (.instantiation value types)
  else return value

/-- A class from its keyword on, begun at `s`. A declaration has a name
unless `nameless` allows it to do without. -/
def classRest (sub : Grammar) (s : Nat) (flags : ClassFlags) (nameless : Bool)
    (decorators : List Node) : Parse Node := do
  expectWord "class"
  let name ← if isName (← token) && !(← atWord "implements") then some <$> bindingName
    else pure none
  require (nameless || name.isSome)
  let types ← typeParams sub
  let parent ← if ← eatWord "extends" then some <$> parentClass sub else pure none
  let interfaces ← if (← typed) && (← atWord "implements") then
      advance
      (·.1) <$> commaList (atMark "\x7b") (sub .type)
    else pure []
  let items ← within (fun c => { c with isDecorator := false, allowsResult := true }) (members sub)
  tree s (.classDef flags decorators name types parent interfaces items)

end DepBundle.Syntax.Grammar
