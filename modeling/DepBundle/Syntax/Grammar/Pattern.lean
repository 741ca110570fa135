import DepBundle.Syntax.Grammar.Name
/-!
# Grammar — patterns and annotations

What is declared where a name may stand, and the types written beside it.
A target with a default or a type is the target with the addition around
it.
-/

namespace DepBundle.Syntax.Grammar

open Parse

/-- Whether a closing angle bracket is in view, perhaps with more after
it. -/
def atAngle : Parse Bool := do
  match ← token with
  | .mark m => return m.startsWith ">"
  | _ => return false

/-- A type after a colon, if there is one. -/
def annotation (sub : Grammar) : Parse (Option Node) := do
  if !(← typed) then return none
  if ← eatMark ":" then return some (← sub .type) else return none

/-- The type of a result, or what a result says of the type of a name. -/
def resultType (sub : Grammar) : Parse Node := do
  let _ ← attempt do
    let _ ← anyWord
    require !(← onNewLine)
    expectWord "is"
  within (fun c => { c with allowsConditional := true }) (sub .type)

/-- The type of a result after a colon, if there is one. -/
def resultAnnotation (sub : Grammar) : Parse (Option Node) := do
  if !(← typed) then return none
  if ← eatMark ":" then return some (← resultType sub) else return none

/-- Types in angle brackets. -/
def typeArgs (sub : Grammar) : Parse Node := do
  let s ← start
  if ← atMark "<<" then
    modify fun place =>
      { place with token := .mark "<", stop := place.start + 1, rest := place.here.drop 1 }
  expectMark "<"
  let (items, _) ← commaList atAngle (sub .type)
  require (!items.isEmpty)
  closeAngle
  tree s (.typeParts items)

/-- A parameter that stands for a type. -/
def typeParam (sub : Grammar) : Parse Node := do
  let s ← start
  let _ ← attempt do
    for w in ["const", "in", "out"] do
      if (← atWord w) && (← follows isWord) then advance
  let name ← bindingName
  let bound ← if ← eatWord "extends" then (some <$> sub .type) else pure none
  let preset ← if ← eatMark "=" then (some <$> sub .type) else pure none
  tree s (.typeParts (name :: bound.toList ++ preset.toList))

/-- The parameters that stand for types, if there are any. -/
def typeParams (sub : Grammar) : Parse (Option Node) := do
  if !((← typed) && (← atMark "<")) then return none
  let s ← start
  advance
  let (items, _) ← commaList atAngle (typeParam sub)
  require (!items.isEmpty)
  closeAngle
  some <$> tree s (.typeParts items)

/-- A target with the type written after it. -/
def annotated (sub : Grammar) (s : Nat) (target : Node) : Parse Node := do
  match ← annotation sub with
  | none => return target
  | some type => tree s (.annotated target (some type))

/-- A target with the default written after it. -/
def withDefault (sub : Grammar) (s : Nat) (target : Node) : Parse Node := do
  if ← eatMark "=" then
    let value ← within (fun c => { c with allowsIn := true }) (sub .assignment)
    tree s (.defaulted target value)
  else return target

/-- What is declared inside a pattern. -/
def patternItem (sub : Grammar) : Parse Node := do
  let s ← start
  withDefault sub s (← sub .pattern)

/-- An item of an array pattern. What takes the rest comes last. -/
def arrayPatternItem (sub : Grammar) : Parse Node := do
  let s ← start
  if ← atMark "," then return ⟨⟨s, s⟩, .hole⟩
  if ← eatMark "..." then
    let target ← sub .pattern
    require (← atMark "]")
    tree s (.rest target)
  else patternItem sub

/-- A member of an object pattern. What takes the rest comes last and is a
name. -/
def objectPatternMember (sub : Grammar) : Parse Node := do
  let s ← start
  if ← eatMark "..." then
    let target ← bindingName
    require (← atMark "\x7d")
    tree s (.rest target)
  else if isWord (← token) && !(← follows (· == .mark ":")) then
    let name ← bindingName
    let target ← withDefault sub s name
    tree s (.patternShorthand target)
  else
    let (computed, key) ← propertyKey sub
    expectMark ":"
    let target ← patternItem sub
    tree s (.patternProperty computed key target)

/-- What is declared: a name or a pattern of names. -/
def pattern (sub : Grammar) : Parse Node := do
  let s ← start
  if ← atMark "[" then
    let (items, _) ← bracketed "[" "]" (arrayPatternItem sub)
    tree s (.arrayPattern items)
  else if ← atMark "\x7b" then
    let (members, _) ← bracketed "\x7b" "\x7d" (objectPatternMember sub)
    tree s (.objectPattern members)
  else bindingName

end DepBundle.Syntax.Grammar
