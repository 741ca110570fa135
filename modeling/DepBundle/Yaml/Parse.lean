import DepBundle.Yaml.Scalar
/-!
# YAML — documents

The value that a text writes. Inside brackets a value is delimited by
indicators, outside by indentation: what belongs to a key or to a dash is
indented further than it.
-/

namespace DepBundle.Yaml

/-- Where values may stand outside brackets. -/
structure Room where
  /-- The least column. -/
  least : Nat
  /-- The column at which a sequence may stand though it is less. -/
  dash : Option Nat := none
  /-- Whether a mapping or a sequence may begin on the line it is in. -/
  opens : Bool

/-- The name after `&` or `*`. -/
def anchorName : Read String := do
  let p ← get
  let name := p.rest.takeWhile fun c => c.isAlphanum || c == '_' || c == '-'
  guard (!name.isEmpty)
  takeAll name
  let rest := (← get).rest
  guard (blankNext rest || rest.head?.any fun c =>
    isFlowIndicator c || ['?', ':', '%', '@', '\x60'].contains c)
  return String.ofList name

/-- The value that an alias stands for. -/
def aliased : Read Yaml := do
  take '*'
  let name ← anchorName
  match ((← get).anchors.lookup name) with
  | some (some v) => return v
  | some none => return circular
  | none => failure

/-- The anchor and the tag before a value, in any order; the anchor counts. -/
def properties (inFlow : Bool) : (n : Nat) → (anchor : Option String) → Read (Option String)
  | 0, anchor => return anchor
  | n + 1, anchor => do
    match ← peek? with
    | some '&' =>
      guard anchor.isNone
      take '&'
      let name ← anchorName
      skipGap inFlow
      properties inFlow n (some name)
    | some '!' =>
      let p ← get
      takeAll (p.rest.takeWhile fun c => !isBlank c && !(inFlow && isFlowIndicator c))
      skipGap inFlow
      properties inFlow n anchor
    | _ => return anchor

/-- Reads a value that may have a name. -/
def named (anchor : Option String) (value : Read Yaml) : Read Yaml := do
  match anchor with
  | none => value
  | some name =>
    modify fun p => { p with anchors := (name, none) :: p.anchors }
    let v ← value
    modify fun p => { p with anchors := (name, some v) :: p.anchors }
    return v

/-- A scalar in quotes. -/
def quotedScalar (quote : Char) : Read Yaml := do
  let p ← get
  take quote
  return scalar (String.ofList (← quotedRest quote (p.rest.length + 1))) false

/-- A scalar without quotes. -/
def plainScalar (inFlow : Bool) (least : Nat) : Read Yaml := do
  let p ← get
  guard (plainBegins inFlow p.rest)
  modify Place.after
  let rest ← plainRest inFlow least (p.rest.length + 1)
  return scalar (String.ofList (p.rest.take 1 ++ rest)) true

/-! ## Inside brackets -/

/-- What comes between the brackets of a sequence or a mapping. -/
inductive Bracket where
  | square
  | curly

/-- The character that closes a bracket. -/
def Bracket.closing : Bracket → Char
  | square => ']'
  | curly => '\x7d'

/-- A value inside brackets. -/
def flowNode (items : Bracket → Read (List (Yaml × Option Yaml))) : Read Yaml := do
  skipGap true
  let anchor ← properties true 2 none
  named anchor do
    let p ← get
    guard !(p.hasMarker '-' || p.hasMarker '.')
    match p.rest with
    | '[' :: _ =>
      take '['
      let found ← items .square
      return sequence (found.map fun (k, v) =>
        match v with
        | some v => mapping [(k, v)]
        | none => k)
    | '\x7b' :: _ =>
      take '\x7b'
      let found ← items .curly
      return mapping (found.map fun (k, v) => (k, v.getD nothing))
    | '"' :: _ => quotedScalar '"'
    | '\'' :: _ => quotedScalar '\''
    | '*' :: _ => aliased
    | c :: _ =>
      if anchor.isSome && (isFlowIndicator c || c == ':') then return nothing
      else plainScalar true 0
    | [] => failure

/-- What is inside brackets, up to the one that closes them. -/
def flowItems : Nat → Bracket → Read (List (Yaml × Option Yaml))
  | 0, _ => failure
  | n + 1, bracket => do
    skipGap true
    let p ← get
    if p.rest.head? == some bracket.closing then
      take bracket.closing
      return []
    else
      let explicit := p.hasIndicator '?'
      if explicit then take '?'
      skipGap true
      let p ← get
      let noKey := p.rest.head? == some ':' && (explicit || blankNext (p.rest.drop 1))
      let key ← if noKey || explicit && (p.rest.head? == some ',' || p.rest.head? == some bracket.closing)
        then pure nothing else flowNode (flowItems n)
      skipGap true
      let value ← if (← peek?) == some ':' then
          take ':'
          skipGap true
          let next ← peek?
          if next == some ',' || next == some bracket.closing then pure (some nothing)
          else some <$> flowNode (flowItems n)
        else pure (if explicit then some nothing else none)
      skipGap true
      if (← peek?) == some ',' then
        take ','
        return (key, value) :: (← flowItems n bracket)
      else
        take bracket.closing
        return [(key, value)]

/-- A value in brackets. -/
def flow : Read Yaml := do
  let p ← get
  flowNode (flowItems (p.rest.length + 1))

/-! ## Outside brackets -/

/-- A value that takes no lines of its own: in quotes, in brackets, an
alias, or without quotes. -/
def inlineNode (least : Nat) : Read Yaml := do
  match ← peek? with
  | some '"' => quotedScalar '"'
  | some '\'' => quotedScalar '\''
  | some '*' => aliased
  | some '[' | some '\x7b' => flow
  | _ => plainScalar false least

/-- Whether a key has just ended: the colon after it is on its line. -/
def colonFollows (line : Nat) : Read Bool := do
  let p ← get
  let after := p.rest.dropWhile fun c => c == ' ' || c == '\t'
  match after with
  | ':' :: rest => return blankNext rest && p.line == line
  | _ => return false

/-- Takes the colon after a key. -/
def takeColon : Read Unit := do
  skipGap false
  take ':'

/-- A mapping: its members from here on, which begin at a column. -/
def membersAt (node : Room → Read Yaml) (column : Nat) : Nat → Read (List (Yaml × Yaml))
  | 0 => failure
  | n + 1 => do
    skipGap false
    let p ← get
    if p.isEnd || p.column < column then return []
    else
      guard (p.column == column)
      let inside : Room := { least := column + 1, dash := some column, opens := false }
      if p.hasIndicator '?' then
        take '?'
        let key ← node { inside with opens := true }
        skipGap false
        let p ← get
        if p.column == column && p.hasIndicator ':' then
          take ':'
          let value ← node { inside with opens := true }
          return (key, value) :: (← membersAt node column n)
        else return (key, nothing) :: (← membersAt node column n)
      else
        let anchor ← properties false 2 none
        let key ← named anchor (inlineNode (column + 1))
        guard (← colonFollows p.line)
        takeColon
        let value ← node inside
        return (key, value) :: (← membersAt node column n)

/-- A sequence: its items from here on, whose dashes are at a column. -/
def itemsAt (node : Room → Read Yaml) (column : Nat) : Nat → Read (List Yaml)
  | 0 => failure
  | n + 1 => do
    skipGap false
    let p ← get
    if p.column == column && p.hasIndicator '-' && !p.isEnd then
      take '-'
      let item ← node { least := column + 1, opens := true }
      return item :: (← itemsAt node column n)
    else return []

/-- A value outside brackets. Where there is none it is nothing. -/
def blockNode : Nat → Room → Read Yaml
  | 0, _ => failure
  | n + 1, room => do
    let before ← get
    skipGap false
    let start ← get
    let anchor ← properties false 2 none
    let p ← get
    let opens := room.opens && p.line == start.line || p.line > before.line
    let isDash := p.hasIndicator '-' && p.line > before.line && room.dash == some p.column
    if p.isEnd || p.column < room.least && !isDash then
      named anchor (return nothing)
    else if p.hasIndicator '-' then
      guard opens
      named anchor (sequence <$> itemsAt (blockNode n) p.column (p.rest.length + 1))
    else if p.hasIndicator '?' then
      guard opens
      named anchor (mapping <$> membersAt (blockNode n) p.column (p.rest.length + 1))
    else if p.rest.head? == some '|' || p.rest.head? == some '>' then
      modify Place.after
      named anchor ((scalar · false) <$> block (p.rest.head? == some '>') room.least)
    else
      let isKeyName := p.line == start.line
      let key ← named (if isKeyName then anchor else none) (inlineNode room.least)
      if ← colonFollows p.line then
        guard opens
        takeColon
        let inside : Room := { least := start.column + 1, dash := some start.column, opens := false }
        let column := if isKeyName then start.column else p.column
        let inside := { inside with least := column + 1, dash := some column }
        named (if isKeyName then none else anchor) do
          let value ← blockNode n inside
          return mapping ((key, value) :: (← membersAt (blockNode n) column (p.rest.length + 1)))
      else if isKeyName then return key
      else named anchor (return key)

/-! ## Documents -/

/-- Goes past the lines of directives before a document. -/
def skipDirectives : Nat → Read Bool
  | 0 => return false
  | n + 1 => do
    skipGap false
    let p ← get
    if p.column == 0 && p.rest.head? == some '%' then
      takeAll (p.rest.takeWhile (· != '\n'))
      let _ ← skipDirectives n
      return true
    else return false

/-- The only document of a text. -/
def document : Read Yaml := do
  let length := (← get).rest.length + 1
  let directed ← skipDirectives length
  skipGap false
  let p ← get
  let marked := p.hasMarker '-'
  guard (marked || !directed)
  if marked then takeAll ['-', '-', '-']
  let v ← blockNode length { least := 0, opens := !marked }
  skipGap false
  if (← get).hasMarker '.' then
    takeAll ['.', '.', '.']
    skipGap false
  guard (← get).rest.isEmpty
  return v

/-- Line ends of every kind written alike. -/
def plainLines : List Char → List Char
  | '\r' :: '\n' :: cs => '\n' :: plainLines cs
  | '\r' :: cs => '\n' :: plainLines cs
  | c :: cs => c :: plainLines cs
  | [] => []

/-- The value that a text writes. -/
def parse? (source : String) : Option Yaml :=
  (document.run { rest := plainLines source.toList }).map (·.1)

end DepBundle.Yaml
