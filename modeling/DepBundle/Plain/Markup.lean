import DepBundle.Plain.Clause
import DepBundle.Plain.Erasure
import DepBundle.Syntax.Token
import DepBundle.Text.Named
/-!
# Plain programs — markup

An element becomes a call that makes it: of its name, of an object with its
attributes and what stands inside it, and of its key. What is called comes
from a module of its own, imported where it is needed. An element whose key
stands behind a spread is made by a call that takes the key as an attribute
and what stands inside it as further arguments.
-/

namespace DepBundle.Plain

open Syntax

/-! ## Text -/

/-- A line of text without the blanks it begins with, or ends with. -/
def trimmed (start stop : Bool) (line : List Char) : List Char :=
  let line := if start then line.dropWhile isBlankChar else line
  if stop then (line.reverse.dropWhile isBlankChar).reverse else line

/-- The lines of a text that are behind its first one, the blanks at their
ends not being part of them but at the end of the last. -/
def laterLines : List (List Char) → List (List Char)
  | [] => []
  | [line] => [trimmed true false line]
  | line :: lines => trimmed true true line :: laterLines lines

/-- A text cut at its line breaks. -/
def textLines : List Char → List (List Char)
  | [] => [[]]
  | c :: cs =>
    if isLineBreak c then [] :: textLines cs
    else match textLines cs with
      | line :: more => (c :: line) :: more
      | [] => [[c]]

/-- The text between elements that is shown: its lines in one, without
those that are blank; nothing where all are. -/
def shownText? (text : String) : Option String :=
  let lines := match textLines text.toList with
    | [] => []
    | [line] => [line]
    | line :: lines => trimmed false true line :: laterLines lines
  let lines := (lines.filter (!·.isEmpty)).map fun line => Text.decodeNamed (String.ofList line)
  if lines.isEmpty then none else some (" ".intercalate lines)

/-! ## What is called -/

/-- What makes an element. -/
inductive Maker where
  /-- With at most one thing inside it. -/
  | single
  /-- With several things inside it. -/
  | several
  /-- What stands for an element without a name. -/
  | fragment
  /-- With a key behind a spread. -/
  | keyed
deriving DecidableEq, Repr

namespace Maker

/-- What it is called in its module. -/
def name : Maker → String
  | single => "jsx"
  | several => "jsxs"
  | fragment => "Fragment"
  | keyed => "createElement"

/-- The module it is in. -/
def module : Maker → String
  | keyed => "react"
  | _ => "react/jsx-runtime"

/-- What it is called in a program that holds some names. -/
def localName (taken : List String) (maker : Maker) : String := fresh taken maker.name

end Maker

/-- A tree without markup, with the makers it needs: those of the elements
inside values, which are made first, and those of its own elements. -/
structure Made where
  node : Node
  inner : List Maker := []
  own : List Maker := []

/-- A tree as it is and without markup. -/
abbrev Marked := Node × Made

namespace Made

/-- The makers a tree needs, in order. -/
def makers (m : Made) : List Maker := m.inner ++ m.own

end Made

/-! ## Attributes -/

/-- Whether an attribute is the key. -/
def isKey (entry : Node) : Bool :=
  match entry.shape with
  | .tagAttribute name _ => match name.shape with
    | .word w => w == "key"
    | _ => false
  | _ => false

/-- Whether an attribute spreads an object. -/
def isSpread (entry : Node) : Bool :=
  match entry.shape with
  | .spreadAttribute _ => true
  | _ => false

/-- Whether the key stands behind a spread. -/
def keyFollowsSpread (attributes : List Node) : Bool :=
  (attributes.dropWhile (!isSpread ·)).any isKey

/-- The name of an attribute as that of a property. -/
def propertyName (name : Node) : Node :=
  match name.shape with
  | .word w =>
    if w.toList.any fun c => c == '-' || c == ':' then ⟨name.span, .string w⟩ else name
  | _ => name

/-- Whether a member of an object names what the object inherits from. -/
def namesParent (member : Node) : Bool :=
  match member.shape with
  | .property false key _ => match key.shape with
    | .word w | .string w => w == "__proto__"
    | _ => false
  | _ => false

/-- The value of an attribute, given it without markup. -/
def attributeValue : Option Node → Node
  | some value =>
    match value.shape with
    | .string s => ⟨value.span, .string (Text.decodeNamed s)⟩
    | .container (some inner) => inner
    | _ => value
  | none => Node.made (.boolean true)

/-- The properties for an attribute, given it without markup. -/
def properties (plain : Node) : List Node :=
  match plain.shape with
  | .tagAttribute name value =>
    [⟨plain.span, .property false (propertyName name) (attributeValue value)⟩]
  | .spreadAttribute value =>
    match value.shape with
    | .object members =>
      if members.any namesParent then [⟨plain.span, .spread value⟩] else members
    | _ => [⟨plain.span, .spread value⟩]
  | _ => []

/-- The value of the last key among attributes without markup. -/
def keyValue? (plain : List Node) : Option Node :=
  (plain.filter isKey).getLast?.bind fun entry =>
    match entry.shape with
    | .tagAttribute _ value => some (attributeValue value)
    | _ => none

/-! ## Elements -/

/-- What stands between two tags, as it is written in a call. -/
def inside (plain : List Node) : List Node :=
  plain.filterMap fun n =>
    match n.shape with
    | .markupText text => (shownText? text).map fun s => ⟨n.span, .string s⟩
    | .container value => value
    | _ => some n

/-- The name of an element as a value. -/
def nameValue (name : Node) : Node :=
  match name.shape with
  | .word w => ⟨name.span, .string w⟩
  | _ => name

/-- The call that makes an element with what stands inside it among its
attributes. -/
def call (callName : Maker → String) (span : Span) (name : Node) (attributes content : List Node) :
    Node :=
  let props := (attributes.filter (!isKey ·)).flatMap properties
  let children := match content with
    | [] => []
    | [child] => [Node.made (.property false (Node.made (.word "children")) child)]
    | content => [Node.made (.property false (Node.made (.word "children"))
        (Node.made (.array content)))]
  let maker := if content.length ≤ 1 then Maker.single else Maker.several
  let made : Node := ⟨span, .call false (Node.ofName (callName maker)) none
    ([name, Node.made (.object (props ++ children))] ++ (keyValue? attributes).toList)⟩
  ⟨span, .dispensable made⟩

/-- The call that makes an element with its key among its attributes. -/
def keyedCall (callName : Maker → String) (span : Span) (name : Node)
    (attributes content : List Node) : Node :=
  let made : Node := ⟨span, .call false (Node.ofName (callName .keyed)) none
    ([name, Node.made (.object (attributes.flatMap properties))] ++ content)⟩
  ⟨span, .dispensable made⟩

/-- An element or a tree, by its subtrees without markup. -/
def unmark (callName : Maker → String) (span : Span) (shape : Shape Marked) : Made :=
  match shape with
  | .element name _ attributes children _ =>
    let given := attributes.map (·.2.node)
    let content := inside (children.map (·.2.node))
    let isKeyed := keyFollowsSpread (attributes.map (·.1))
    let maker := if isKeyed then Maker.keyed
      else if content.length ≤ 1 then .single else .several
    { node := (if isKeyed then keyedCall else call) callName span (nameValue name.2.node) given content
      inner := (attributes ++ children).flatMap (·.2.inner)
      own := (attributes ++ children).flatMap (·.2.own) ++ [maker] }
  | .fragment children =>
    let content := inside (children.map (·.2.node))
    { node := call callName span (Node.ofName (callName .fragment)) [] content
      inner := children.flatMap (·.2.inner)
      own := children.flatMap (·.2.own)
        ++ [.fragment, if content.length ≤ 1 then .single else .several] }
  | .tagAttribute _ (some value) =>
    { node := ⟨span, shape.map (·.2.node)⟩, inner := value.2.inner, own := value.2.own }
  | shape =>
    { node := ⟨span, shape.map (·.2.node)⟩
      inner := shape.children.flatMap (·.2.makers) }

/-- Whether a tree holds markup that no call can stand for: a name with a
colon in it, a key without a value, what is spread between tags. -/
def hasStrayMarkup (node : Node) : Bool :=
  node.para fun _ shape =>
    let own := match shape with
      | .element name _ attributes _ _ =>
        (match name.1.shape with
          | .word w => w.toList.contains ':'
          | _ => false)
        || attributes.any fun a => isKey a.1 && match a.1.shape with
          | .tagAttribute _ none => true
          | _ => false
      | .spreadChild _ => true
      | _ => false
    own || shape.children.any (·.2)

/-! ## Programs -/

/-- The imports of makers, each module in turn by what is first needed of
it. -/
def makerImports (callName : Maker → String) (makers : List Maker) : List Node :=
  let needed := makers.eraseDups
  let modules := (needed.map Maker.module).eraseDups
  modules.map fun source =>
    let items := (needed.filter (·.module = source)).map fun m =>
      Node.made (.importNamed false (some (Node.made (.word m.name)))
        (Node.made (.binding (callName m))))
    Node.made (.importDecl false true items (Node.ofString source) none)

/-- Whether a statement is an import. -/
def isImport (node : Node) : Bool :=
  match node.shape with
  | .importDecl .. => true
  | _ => false

/-- A program without markup, its new imports being behind the directives
and imports it begins with; nothing where no call can stand for some of
it. -/
def withoutMarkup? (program : Node) : Option Node :=
  if hasStrayMarkup program then none
  else
    let taken := program.allNames
    let callName := Maker.localName taken
    let made := program.para (unmark callName)
    let items := programStatements made.node
    let leads := fun n => isDirective n || isImport n
    some ⟨program.span, .program (items.takeWhile leads
      ++ makerImports callName made.makers ++ items.dropWhile leads)⟩

end DepBundle.Plain
