import DepBundle.Plain.Constant
import DepBundle.Plain.TypeOnly
/-!
# Plain programs — enumerations

An enumeration becomes a function that gives an object its members, called
with the object there is. A member with a number for its value is found by
that number as well.
-/

namespace DepBundle.Plain

open Syntax

/-- The enumerations known at some place, latest first. -/
abbrev Known := List (String × Members)

/-- The name of a member of an enumeration. -/
def memberName (member : Node) : String :=
  match member.shape with
  | .enumMember key _ =>
    match key.shape with
    | .word w | .string w | .binding w | .reference w => w
    | .template texts _ => String.join texts
    | _ => ""
  | _ => ""

/-- The initializer of a member of an enumeration. -/
def initializer? (member : Node) : Option Node :=
  match member.shape with
  | .enumMember _ value => value
  | _ => none

/-- How far the members of an enumeration have come. -/
structure Progress where
  members : Members
  /-- The value of the last member, if it is known. -/
  value : Option Constant := some (.number (-1))
  /-- The name of the last member. -/
  name : Option String := none

/-- The value of the next member. One without an initializer is one more
than the one before it. -/
def Progress.next (p : Progress) (known : Known) (member : Node) : Progress :=
  let name := memberName member
  let value := match initializer? member, p.value with
    | some value, _ => Constant.ofExpression? known p.members value
    | none, some (.number n) => some (.number (n + 1))
    | none, _ => if p.name.isNone then some (.number 0) else none
  { members := (name, value) :: p.members, value, name := some name }

/-- The members of an enumeration once all have been passed. -/
def membersOf (known : Known) (name : String) (members : List Node) : Members :=
  (members.foldl (fun p member => p.next known member)
    ({ members := (known.lookup name).getD [] } : Progress)).members

/-- Where the enumerations of a tree begin, their names and members. -/
def enumerations (node : Node) : List (Nat × String × List Node) :=
  node.para fun span shape =>
    match shape with
    | .enumDecl false name members =>
      match name.1.shape with
      | .binding w => [(span.start, w, members.map (·.1))]
      | _ => []
    | shape => shape.children.flatMap (·.2)

/-- What is known where each enumeration begins. -/
def knownAt : Known → List (Nat × String × List Node) → List (Nat × Known)
  | _, [] => []
  | known, (start, name, members) :: more =>
    (start, known) :: knownAt ((name, membersOf known name members) :: known) more

/-- A tree in which members of an enumeration are looked up in its object,
where no other name hides them. -/
def looksUp (object : String) (node : Node) : List String → Node :=
  node.para fun span shape names =>
    let hidden := (shape.map (·.1)).frame
    let inner := names.filter (!hidden.contains ·)
    match shape with
    | .reference w => if names.contains w then Node.ofMember object w else ⟨span, .reference w⟩
    | .shorthand value =>
      match value.1.shape with
      | .reference w =>
        if names.contains w then
          ⟨span, .property false ⟨value.1.span, .word w⟩ (Node.ofMember object w)⟩
        else ⟨span, .shorthand value.1⟩
      | _ => ⟨span, .shorthand (value.2 names)⟩
    | shape => ⟨span, shape.map fun (_, made) => made inner⟩

/-- A member of what a name refers to, in brackets. -/
def subscripted (object : String) (subscript : Node) : Node :=
  Node.made (.index false (Node.ofName object) subscript)

/-- The value given to the member that was passed last, by its initializer
without types. -/
def givenValue (object : String) (before after : Progress) (plain : Option Node) : Node :=
  match after.value, plain, before.name with
  | some value, _, _ => value.written
  | none, some value, _ => looksUp object value (after.members.map (·.1))
  | none, none, some name =>
    Node.made (.binary "+" (Node.made (.number "1")) (subscripted object (Node.ofString name)))
  | none, none, none => Node.made (.number "0")

/-- Whether a value is a string as it stands. -/
def isText (node : Node) : Bool :=
  match node.shape with
  | .string _ => true
  | _ => false

/-- The statement that gives an object a member. -/
def memberStatement (span : Span) (object name : String) (value : Node) : Node :=
  let key := Node.ofString name
  let forward := Node.ofAssignment (subscripted object key) value
  let both := Node.ofAssignment (subscripted object forward) key
  ⟨span, .expression (if isText value then forward else both)⟩

/-- The statements that give an object its members, which come as they are
and without types. -/
def memberStatements (object : String) (known : Known) :
    Progress → List (Node × Node) → List Node
  | _, [] => []
  | p, (member, plain) :: more =>
    let after := p.next known member
    memberStatement member.span object (memberName member)
        (givenValue object p after (initializer? plain))
      :: memberStatements object known after more

/-- The function that gives an object the members of an enumeration. -/
def enumerationFunction (span : Span) (name : String) (known : Known)
    (members : List (Node × Node)) : Node :=
  let statements := memberStatements name known { members := (known.lookup name).getD [] } members
  Node.ofFunction name span
    (statements ++ [Node.made (.returns (some (Node.ofName name)))])

/-- Whether initializers of an enumeration call something. -/
def initializersCall (enumeration : Node) : Bool :=
  match enumeration.shape with
  | .enumDecl _ _ members => members.any fun m => (initializer? m).any fun value =>
      match value.shape with
      | .call .. | .construct .. => true
      | _ => false
  | _ => false

/-- The statement for an enumeration, given the function for its members. -/
def ofEnumeration (isTop isExported isDeclared : Bool) (enumeration function : Node) : Node :=
  let name := (enumeration.lexicalNames.head?).getD ""
  let isLocal := isExported || !isTop
  let empty := Node.made (.object [])
  let object :=
    if isLocal && !isDeclared then empty
    else Node.made (.binary "||" (Node.ofName name) empty)
  let call := Node.ofCall function [object]
  let value := if initializersCall enumeration then call else Node.made (.dispensable call)
  if isDeclared then ⟨enumeration.span, .expression (Node.ofAssignment (Node.ofName name) value)⟩
  else
    Node.ofVariable enumeration.span (if isLocal then .letKind else .varKind) name (some value)

end DepBundle.Plain
