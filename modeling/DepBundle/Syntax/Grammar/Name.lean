import DepBundle.Syntax.Parse
/-!
# Grammar — names

Where a word may stand for a binding and where it is a name only. Some
words are reserved everywhere and some by their surroundings; as the name
of a property any word will do.
-/

namespace DepBundle.Syntax.Grammar

open Parse

/-- Words that are never bound. -/
def reservedWords : List String :=
  ["break", "case", "catch", "class", "const", "continue", "debugger", "default", "delete", "do",
   "else", "enum", "export", "extends", "false", "finally", "for", "function", "if", "import",
   "in", "instanceof", "new", "null", "return", "super", "switch", "this", "throw", "true", "try",
   "typeof", "var", "void", "while", "with"]

/-- Whether a word may be bound in some surroundings. -/
def isBindable (w : String) : Bool := !reservedWords.contains w

/-- Whether a word may be bound in these surroundings. -/
def isFree (c : Context) (w : String) : Bool :=
  isBindable w && !(w == "await" && c.isAsync) && !(w == "yield" && c.isGenerator)

/-- Whether a token is a word that may be bound in some surroundings. -/
def isName : Token → Bool
  | .word w _ => isBindable w
  | _ => false

/-- Whether a token is a word. -/
def isWord : Token → Bool
  | .word _ _ => true
  | _ => false

/-- The name in view, which may be bound here. -/
def freeName : Parse String := do
  match ← token with
  | .word w _ => require (isFree (← get).context w); advance; return w
  | _ => refuse

/-- A name being declared. -/
def bindingName : Parse Node := do
  let s ← start
  let w ← freeName
  tree s (.binding w)

/-- A name standing for what it is bound to. -/
def referenceName : Parse Node := do
  let s ← start
  let w ← freeName
  tree s (.reference w)

/-- A label. -/
def labelName : Parse Node := do
  let s ← start
  let w ← freeName
  tree s (.word w)

/-- Any word. -/
def anyWord : Parse Node := do
  let s ← start
  match ← token with
  | .word w _ => advance; tree s (.word w)
  | _ => refuse

/-- A private name. -/
def privateName : Parse Node := do
  let s ← start
  match ← token with
  | .privateWord w => advance; tree s (.privateWord w)
  | _ => refuse

/-- A string. -/
def string : Parse Node := do
  let s ← start
  match ← token with
  | .string value _ _ => advance; tree s (.string value)
  | _ => refuse

/-- A name in an import or export clause: a word, or a string that spells
a text. -/
def clauseName : Parse Node := do
  match ← token with
  | .string _ _ sound => require sound; string
  | _ => anyWord

/-- The name of a property as it stands outside brackets. -/
def plainKey : Parse Node := do
  let s ← start
  match ← token with
  | .string value _ _ => advance; tree s (.string value)
  | .number text => advance; tree s (.number text)
  | .bigint text => advance; tree s (.bigint text)
  | _ => anyWord

/-- The name of a property, and whether it is computed. -/
def propertyKey (sub : Grammar) : Parse (Bool × Node) := do
  if ← eatMark "[" then
    let key ← within (fun c => { c with allowsIn := true }) (sub .assignment)
    expectMark "]"
    return (true, key)
  return (false, ← plainKey)

/-- The name of a member of a class, which may be private. -/
def memberKey (sub : Grammar) : Parse (Bool × Node) := do
  match ← token with
  | .privateWord w => require (w != "constructor"); return (false, ← privateName)
  | _ => propertyKey sub

/-- Whether the name of a member may begin with a token. -/
def beginsKey : Token → Bool
  | .word _ _ | .privateWord _ | .string _ _ _ | .number _ | .bigint _ | .mark "[" => true
  | _ => false

end DepBundle.Syntax.Grammar
