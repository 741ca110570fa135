import DepBundle.Syntax.Node
import DepBundle.Syntax.Token
/-!
# Syntax — reading along a text

Reading is a walk over the tokens of a text with one token in view: it
ends with a result and a place further on, or it fails. What fails leaves
no trace, so a reader may try one form and then another from the same
place. Loops are bounded by the length of the text.
-/

namespace DepBundle.Syntax

/-- What the surroundings of a place allow. -/
structure Context where
  /-- Whether `in` is an operator. -/
  allowsIn : Bool := true
  /-- Whether `yield` is an operator. -/
  isGenerator : Bool := false
  /-- Whether `await` is an operator. -/
  isAsync : Bool := false
  /-- Whether there is a function to return from. -/
  isFunction : Bool := false
  /-- Whether a bracket would belong to what is decorated. -/
  isDecorator : Bool := false
  /-- Whether an arrow function may say the type of its result. -/
  allowsResult : Bool := true
  /-- Whether all that is declared is defined elsewhere. -/
  isAmbient : Bool := false
  /-- Whether a type may be chosen by a condition on another. -/
  allowsConditional : Bool := true
deriving DecidableEq, Repr, Inhabited

/-- A place in a text. -/
structure Place where
  dialect : Dialect
  /-- More than there are tokens in the text. -/
  limit : Nat
  context : Context := {}
  /-- The token in view. -/
  token : Token := .finish
  /-- Whether a line ends before the token. -/
  fresh : Bool := true
  /-- Where the token begins. -/
  start : Nat := 0
  here : List Char := []
  /-- Where the token ends. -/
  stop : Nat := 0
  rest : List Char := []
  /-- Where the token before ended. -/
  last : Nat := 0
  prior : List Char := []
  /-- The comments passed so far, latest first. -/
  comments : List Comment := []
  /-- The comments between the token and the one before. -/
  between : List Comment := []
  /-- Where members of objects were read that only a pattern can have. -/
  pending : List Nat := []
  /-- Where items were read that a comma follows but no item. -/
  trailing : List Nat := []
deriving Inhabited

/-- Reading an `α` from a place on. -/
abbrev Parse := StateT Place Option

namespace Parse

variable {α : Type}

/-- No reading. -/
def refuse : Parse α := fun _ => none

/-- Going on only where `b` holds. -/
def require (b : Bool) : Parse Unit := if b then pure () else refuse

/-- What `p` reads, or nothing from the same place where it fails. -/
def attempt (p : Parse α) : Parse (Option α) := fun place =>
  match p place with
  | some (a, next) => some (some a, next)
  | none => some (none, place)

/-- What `p` would find, without going on. -/
def foresee (p : Parse Bool) : Parse Bool := fun place =>
  match p place with
  | some (b, _) => some (b, place)
  | none => some (false, place)

/-- Reading `p` with other surroundings. -/
def within (change : Context → Context) (p : Parse α) : Parse α := do
  let outer := (← get).context
  modify fun place => { place with context := change outer }
  let a ← p
  modify fun place => { place with context := outer }
  return a

/-! ## Tokens -/

/-- The place with the next token in view, whatever follows `rest`. -/
def next (place : Place) : Place :=
  let comments := place.between.reverse ++ place.comments
  match gap place.dialect.isScript .blank place.stop (place.stop == 0) place.rest with
  | none =>
    { place with
      token := .invalid, fresh := false, start := place.stop, here := place.rest
      last := place.stop, prior := place.rest, comments := comments, between := [] }
  | some g =>
    let l := lexeme g.stop g.rest
    { place with
      token := l.token, fresh := g.newline, start := g.stop, here := g.rest
      stop := l.stop, rest := l.rest, last := place.stop, prior := place.rest
      comments := comments, between := g.comments }

/-- Passing the token in view. -/
def advance : Parse Unit := do
  let place ← get
  require (place.token != .finish && place.token != .invalid)
  set (next place)

/-- The token in view, read anew. -/
def reread (l : Nat → List Char → Lexeme) : Parse Unit :=
  modify fun place =>
    let l := l place.start place.here
    { place with token := l.token, stop := l.stop, rest := l.rest }

/-- The token in view. -/
def token : Parse Token := return (← get).token

/-- Where the token in view begins. -/
def start : Parse Nat := return (← get).start

/-- Whether a line ends before the token in view. -/
def onNewLine : Parse Bool := return (← get).fresh

/-- Whether the program has types. -/
def typed : Parse Bool := return (← get).dialect.typed

/-- Whether the given mark is in view. -/
def atMark (m : String) : Parse Bool := return (← token) == .mark m

/-- Whether the given word is in view, written without escapes. -/
def atWord (w : String) : Parse Bool := return (← token) == .word w false

/-- Passing the given mark if it is in view. -/
def eatMark (m : String) : Parse Bool := do
  if ← atMark m then advance; return true else return false

/-- Passing the given word if it is in view. -/
def eatWord (w : String) : Parse Bool := do
  if ← atWord w then advance; return true else return false

/-- Passing the given mark. -/
def expectMark (m : String) : Parse Unit := do require (← eatMark m)

/-- Passing the given word. -/
def expectWord (w : String) : Parse Unit := do require (← eatWord w)

/-- Whether the token after the one in view satisfies `p`. -/
def follows (p : Token → Bool) : Parse Bool := foresee do advance; return p (← token)

/-- Whether the token after the one in view satisfies `p` and is on the
same line. -/
def followsHere (p : Token → Bool) : Parse Bool :=
  foresee do advance; return p (← token) && !(← onNewLine)

/-- Passing the end of a statement: a semicolon, or a place where one may
be left out. -/
def semicolon : Parse Unit := do
  if ← eatMark ";" then return
  let t ← token
  require ((← onNewLine) || t == .mark "\x7d" || t == .finish)

/-- Whether a statement may end before the token in view. -/
def mayEnd : Parse Bool := do
  let t ← token
  return (← onNewLine) || t == .mark ";" || t == .mark "\x7d" || t == .finish

/-- Passing a closing angle bracket, also one that a longer mark begins
with. -/
def closeAngle : Parse Unit := do
  match ← token with
  | .mark m =>
    require (m.startsWith ">")
    modify fun place =>
      { place with token := .mark ">", stop := place.start + 1, rest := place.here.drop 1 }
    advance
  | _ => refuse

/-! ## Trees and lists -/

/-- The tree of a shape read from `start` up to here. -/
def tree (start : Nat) (shape : Shape Node) : Parse Node := do
  return ⟨⟨start, (← get).last⟩, shape⟩

/-- Reading items until `done`. -/
def untilDone (done : Parse Bool) (item : Parse α) : Parse (List α) := do
  go (← get).limit
where
  go : Nat → Parse (List α)
    | 0 => refuse
    | n + 1 => do
      if ← done then return []
      let a ← item
      return a :: (← go n)

/-- Items with commas between them up to a closing mark, which is not
passed. The last one may have a comma after it: `true` if it has. -/
def commaList (close : Parse Bool) (item : Parse α) : Parse (List α × Bool) := do
  go (← get).limit
where
  go : Nat → Parse (List α × Bool)
    | 0 => refuse
    | n + 1 => do
      if ← close then return ([], false)
      let a ← item
      if ← eatMark "," then
        if ← close then return ([a], true)
        let (as, comma) ← go n
        return (a :: as, comma)
      require (← close)
      return ([a], false)

/-- Items with commas between them, in brackets. -/
def bracketed (opening closing : String) (item : Parse α) : Parse (List α × Bool) := do
  expectMark opening
  let r ← commaList (atMark closing) item
  expectMark closing
  return r

end Parse

/-- Places of a grammar that lead back to it. -/
inductive Goal where
  /-- A statement; alone where a list of statements is not allowed. -/
  | statement (alone : Bool)
  | expression
  | assignment
  /-- Operands with operators that bind tighter than a given one. -/
  | operands (above : Nat)
  | unary
  | leftHand
  /-- What is declared: a name or a pattern of names. -/
  | pattern
  | type
  | element
deriving DecidableEq, Repr

/-- How the places of the grammar are read. -/
abbrev Grammar := Goal → Parse Node

end DepBundle.Syntax
