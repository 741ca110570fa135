import DepBundle.Syntax.Grammar.Class
/-!
# Grammar — elements

Elements as they stand in expressions. Between two tags there is text and
no token, so an element is read up to its last bracket, which stays in
view: whoever goes on knows whether text or a token follows.
-/

namespace DepBundle.Syntax.Grammar

open Parse

/-- A name in a tag, in which hyphens may stand. -/
def tagWord (start : Nat) (cs : List Char) : Lexeme :=
  let name := cs.takeWhile fun c => Text.isIdentifierPart c || c == '-'
  if name.head?.any Text.isIdentifierStart then
    ⟨.word (String.ofList name) false, start + name.length, cs.drop name.length⟩
  else ⟨.invalid, start, cs⟩

/-- A string in a tag, in which nothing is escaped. -/
def tagString (start : Nat) : List Char → Lexeme
  | q :: cs =>
    let text := cs.takeWhile (· != q)
    let rest := cs.drop text.length
    if (q == '"' || q == '\'') && !rest.isEmpty then
      ⟨.string (String.ofList text) (String.ofList text) true, start + text.length + 2, rest.drop 1⟩
    else ⟨.invalid, start, q :: cs⟩
  | [] => ⟨.invalid, start, []⟩

/-- The place with the text after the bracket in view. -/
def textAfter (width : Nat) (place : Place) : Place :=
  let from' := place.start + width
  let cs := place.here.drop width
  let text := cs.takeWhile fun c => c != '<' && c != '\x7b'
  { place with
    token := .plain (String.ofList text), fresh := false, start := from', here := cs
    stop := from' + text.length, rest := cs.drop text.length, last := from', prior := cs
    comments := place.between.reverse ++ place.comments, between := [] }

/-- Going on with the text after the bracket in view. -/
def enterText : Parse Unit := modify (textAfter 1)

/-- Whether a name in a tag stands for itself and not for a binding. -/
def isIntrinsic (name : String) : Bool :=
  name.toList.head?.any Char.isLower || name.toList.contains '-'

/-- A word in a tag as written. -/
def tagName : Parse String := do
  reread tagWord
  match ← token with
  | .word w _ => advance; return w
  | _ => refuse

/-- The name of an element. -/
def elementName : Parse Node := do
  let s ← start
  let w ← tagName
  if ← eatMark ":" then
    let v ← tagName
    tree s (.word (w ++ ":" ++ v))
  else if ← atMark "." then
    let head ← if w == "this" then tree s .thisValue else tree s (.reference w)
    go (← get).limit s head
  else if w == "this" then tree s .thisValue
  else if isIntrinsic w then tree s (.word w)
  else tree s (.reference w)
where
  go : Nat → Nat → Node → Parse Node
    | 0, _, _ => refuse
    | n + 1, s, e => do
      if ← eatMark "." then
        let t ← start
        let w ← tagName
        let name ← tree t (.word w)
        go n s (← tree s (.member false e name))
      else return e

/-- The name of an element as it is compared. -/
def nameText (node : Node) : String :=
  node.para fun _ shape =>
    match shape with
    | .word w | .reference w => w
    | .thisValue => "this"
    | .member _ object name => object.2 ++ "." ++ name.2
    | _ => ""

/-- The value of an attribute. -/
def attributeValue (sub : Grammar) : Parse Node := do
  let s ← start
  if ← atMark "\x7b" then
    advance
    let value ← sub .assignment
    expectMark "\x7d"
    tree s (.container (some value))
  else if ← atMark "<" then
    let node ← sub .element
    closeAngle
    return node
  else
    reread tagString
    string

/-- An attribute. -/
def tagAttribute (sub : Grammar) : Parse Node := do
  let s ← start
  if ← eatMark "\x7b" then
    expectMark "..."
    let value ← sub .assignment
    expectMark "\x7d"
    tree s (.spreadAttribute value)
  else
    let t ← start
    let w ← tagName
    let w ← if ← eatMark ":" then (fun v => w ++ ":" ++ v) <$> tagName else pure w
    let name ← tree t (.word w)
    let value ← if ← eatMark "=" then some <$> attributeValue sub else pure none
    tree s (.tagAttribute name value)

/-- A value in braces between tags. The closing brace stays in view. -/
def child (sub : Grammar) : Parse Node := do
  let s ← start
  expectMark "\x7b"
  let ended (shape : Shape Node) : Parse Node := do
    require (← atMark "\x7d")
    return ⟨⟨s, (← start) + 1⟩, shape⟩
  if ← atMark "\x7d" then ended (.container none)
  else if ← eatMark "..." then
    let value ← sub .expression
    ended (.spreadChild value)
  else
    let value ← sub .expression
    ended (.container (some value))

/-- What stands between the bracket in view and the next closing tag, whose
slash comes into view. -/
def children (sub : Grammar) : Parse (List Node) := do
  go (← get).limit
where
  go : Nat → Parse (List Node)
    | 0 => refuse
    | n + 1 => do
      enterText
      let place ← get
      let texts := match place.token with
        | .plain text => if text == "" then [] else
          [⟨⟨place.start, place.stop⟩, .markupText text⟩]
        | _ => []
      set (next place)
      if ← atMark "\x7b" then
        let node ← child sub
        return texts ++ node :: (← go n)
      else if ← follows (· == .mark "/") then
        expectMark "<"
        return texts
      else
        require (← atMark "<")
        let node ← sub .element
        return texts ++ node :: (← go n)

/-- An element up to its last bracket, which stays in view. -/
def element (sub : Grammar) : Parse Node := do
  let s ← start
  let ended (shape : Shape Node) : Parse Node := do
    require (← atAngle)
    return ⟨⟨s, (← start) + 1⟩, shape⟩
  expectMark "<"
  if ← atAngle then
    let children ← children sub
    expectMark "/"
    ended (.fragment children)
  else
    let name ← elementName
    let types ← if (← typed) && (← atMark "<") then some <$> typeArgs sub else pure none
    let attributes ← untilDone (do return (← atAngle) || (← atMark "/")) (tagAttribute sub)
    if ← eatMark "/" then ended (.element name types attributes [] none)
    else
      let children ← children sub
      expectMark "/"
      let closing ← elementName
      require (nameText name == nameText closing)
      ended (.element name types attributes children (some closing))

end DepBundle.Syntax.Grammar
