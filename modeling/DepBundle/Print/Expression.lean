import DepBundle.Print.Literal
import DepBundle.Print.Slot
/-!
# Printing — expressions and patterns

How each expression and pattern is written, by how its parts are. Arrays of
more than two items and objects of more than one member take a line for
each.
-/

namespace DepBundle.Print

open Syntax

/-- A step with the place at which it begins. -/
def atStart (marks : List (Option Nat)) : Printing Bool := return marks.contains (some (← Print.position))

/-- Whether an expression that begins here would be taken for a statement
or for what is exported by default. -/
def beginsStatement : Printing Bool := do
  let p ← get
  atStart [p.statementAt, p.defaultAt]

/-- Whether an object that begins here would be taken for a block. -/
def beginsBlock : Printing Bool := do
  let p ← get
  atStart [p.statementAt, p.arrowAt]

/-- Lists items on lines of their own, or in one line with `gap` at its
ends. -/
def listed (isLong : Bool) (gap : Printing Unit) : List (Printing Unit) → Printing Unit
  | [] => pure ()
  | items => do
    if isLong then
      Print.deeper (go true items)
      Print.newline
      Print.indent
    else
      gap
      Print.separated items
      gap
where
  go : Bool → List (Printing Unit) → Printing Unit
    | _, [] => pure ()
    | isFirst, item :: items => do
      if !isFirst then Print.text ","
      Print.newline
      Print.indent
      item
      go false items

/-- The name of a member outside or inside brackets. -/
def writeKey (computed : Bool) (key : Piece) : Printing Unit := do
  if computed then Print.text "["
  key.item
  if computed then Print.text "]"

/-- The arguments of a call that ends at `stop`. Where some of them have
comments, each gets a line. -/
def arguments (stop : Nat) (args : List Piece) : Printing Unit := do
  let atEnd ← if stop = 0 then pure false else Print.hasRemarks (stop - 1)
  let each ← args.anyM fun a => Print.hasRemarks a.start
  Print.text "("
  if atEnd || each then
    Print.deeper do
      go true args
      let told ← if atEnd then Print.remarksAlone (stop - 1) else pure false
      if !told then Print.newline
    Print.indent
  else Print.separated (args.map Piece.item)
  Print.text ")"
where
  go : Bool → List Piece → Printing Unit
    | _, [] => pure ()
    | isFirst, a :: rest => do
      if !isFirst then Print.text ","
      let told ← Print.remarksAlone a.start
      if !told then Print.newline
      Print.indent
      a.item
      go false rest

/-- The ranks that the operands of an operator are written at. What mixes
`??` with other logical operators keeps its parentheses, and so does a sign
before the base of a power. -/
def operandRanks (op : String) (left right : Node) : Rank × Rank :=
  let rank := Rank.ofOperator op
  let mixes (node : Node) : Bool :=
    match (bare node).shape with
    | .binary "||" _ _ | .binary "&&" _ _ => true
    | _ => false
  if op = "??" then
    (if mixes left then .leading else rank.below, if mixes right then .leading else rank)
  else if op = "**" then
    match (bare left).shape with
    | .unary _ _ => (.call, rank.below)
    | _ => (rank, rank.below)
  else (rank.below, rank)

/-- Whether an operator is a word. -/
def isWordOperator (op : String) : Bool := op.toList.all Char.isAlpha

/-- The texts of a template with its values between them. -/
def templateParts : List String → List Piece → Printing Unit
  | [], _ => pure ()
  | t :: ts, [] => do
    Print.text t
    templateParts ts []
  | t :: ts, v :: vs => do
    Print.text (t ++ "$\x7b")
    v.whole
    Print.text "\x7d"
    templateParts ts vs

/-- The items of an array, those left out being empty. -/
def arrayItems (items : List Piece) : List (Printing Unit) :=
  items.map fun p => match p.shape with
    | .hole => pure ()
    | _ => p.item

/-- Whether the last item is left out, so that a comma has to say so. -/
def endsWithHole (items : List Piece) : Bool :=
  items.getLast?.any fun p => match p.shape with
    | .hole => true
    | _ => false

/-- Whether a property is named like the reference that is its value. -/
def isShorthand (computed : Bool) (key value : Node) : Bool :=
  match key.shape, (bare value).shape with
  | .word k, .reference v => !computed && k = v && k ≠ "__proto__"
  | _, _ => false

/-- Whether a member of a pattern is named like its target. -/
def bindsOwnName (computed : Bool) (key target : Node) : Bool :=
  match key.shape, target.shape with
  | .word k, .binding b => !computed && k = b
  | .word k, .defaulted target _ =>
    match target.shape with
    | .binding b => !computed && k = b
    | _ => false
  | _, _ => false

/-- The items of a pattern, and what takes the rest if something does. -/
def splitRest (items : List Piece) : List Piece × Option Piece :=
  match items.reverse with
  | last :: front =>
    match last.shape with
    | .rest _ => (front.reverse, some last)
    | _ => (items, none)
  | [] => ([], none)

/-- How a decorator's value is written: names and calls of them as they
are, anything else in parentheses. -/
def isPlainDecorator (node : Node) : Bool :=
  node.para fun _ shape =>
    match shape with
    | .reference _ => true
    | .member _ object _ => object.2
    | .call _ callee _ _ => callee.2
    | _ => false

/-- Decorators, each with a space behind it. -/
def decorators (items : List Piece) : Printing Unit :=
  Print.inTurn (items.map fun d => do
    d.whole
    Print.space)

/-- How a literal or a name is written. -/
def literal? : Shape Piece → Option Printed
  | .binding w | .reference w | .word w => some fun _ => Print.word w
  | .privateWord w => some fun _ => Print.text ("#" ++ w)
  | .null => some fun _ => Print.word "null"
  | .boolean b => some fun _ => Print.word (if b then "true" else "false")
  | .number numeral => some fun _ => do
    let t := numberText numeral
    Print.word t
    if isBareNumber t then
      let n ← Print.position
      modify fun p => { p with numberAt := some n }
  | .bigint numeral => some fun _ =>
    Print.word (String.ofList (numeral.toList.filter (· != '_')))
  | .string value => some fun _ => Print.text (stringText value)
  | .regex written => some fun _ => Print.text written
  | .template texts values => some fun _ => do
    Print.text "\x60"
    templateParts texts values
    Print.text "\x60"
  | .thisValue => some fun _ => Print.word "this"
  | .superValue => some fun _ => Print.word "super"
  | .metaProperty object name => some fun _ => Print.word (object ++ "." ++ name)
  | _ => none

/-- How what is selected or called is written. -/
def selection? (span : Span) : Shape Piece → Option Printed
  | .member optional object name => some fun slot => do
    object.2 { rank := .trailing, noCall := slot.noCall }
    if optional then Print.text "?"
    else if (← get).numberAt = some (← Print.position) then Print.space
    Print.text "."
    match name.shape with
    | .privateWord w => Print.text ("#" ++ w)
    | _ => name.whole
  | .index optional object subscript => some fun slot => do
    object.2 { rank := .trailing, noCall := slot.noCall }
    if optional then Print.text "?."
    Print.text "["
    subscript.whole
    Print.text "]"
  | .call optional callee _ args => some fun slot => do
    let isStatement ← atStart [(← get).statementAt]
    let isDefault ← atStart [(← get).defaultAt]
    Print.wrapped (Rank.new ≤ slot.rank || slot.noCall) do
      let n ← Print.position
      if isDefault then modify fun p => { p with defaultAt := some n }
      else if isStatement then modify fun p => { p with statementAt := some n }
      callee.2 { rank := .trailing }
      if optional then Print.text "?."
      arguments span.stop args
  | .construct callee _ args => some fun slot =>
    Print.wrapped (Rank.call ≤ slot.rank) do
      Print.word "new "
      callee.2 { rank := .new, noCall := true }
      arguments span.stop args
  | .dispensable value => some fun slot => do
    let isCall := match value.shape with
      | .call .. => Rank.new ≤ slot.rank || slot.noCall
      | _ => false
    let isStatement ← atStart [(← get).statementAt]
    let isDefault ← atStart [(← get).defaultAt]
    Print.wrapped (Rank.trailing ≤ slot.rank || isCall) do
      Print.text "/* @__PURE__ */ "
      let n ← Print.position
      if isDefault then modify fun p => { p with defaultAt := some n }
      else if isStatement then modify fun p => { p with statementAt := some n }
      value.whole
  | .importCall source options => some fun slot =>
    Print.wrapped (Rank.new ≤ slot.rank || slot.noCall) do
      Print.word "import"
      arguments span.stop (source :: options.toList)
  | .taggedTemplate tag _ quasi => some fun _ => do
    tag.2 { rank := .trailing }
    quasi.whole
  | .chain value => some fun slot =>
    Print.wrapped (Rank.trailing ≤ slot.rank) (value.2 { noCall := slot.noCall })
  | _ => none

/-- How an operation is written. -/
def operation? : Shape Piece → Option Printed
  | .unary op value => some fun slot =>
    Print.wrapped (Rank.leading ≤ slot.rank) do
      if isWordOperator op then Print.word (op ++ " ") else Print.operator op
      value.2 { rank := .power, noCall := slot.noCall }
  | .update isLeading op target => some fun slot =>
    if isLeading then Print.wrapped (Rank.leading ≤ slot.rank) do
      Print.operator op
      target.2 { rank := .leading }
    else Print.wrapped (Rank.trailing ≤ slot.rank) do
      target.2 { rank := .trailing }
      Print.operator op
  | .binary op left right => some fun slot =>
    let isWrapped := Rank.ofOperator op ≤ slot.rank || (op == "in" && slot.noIn)
    let noIn := slot.noIn && !isWrapped
    let (leftRank, rightRank) := operandRanks op left.1 right.1
    Print.wrapped isWrapped do
      left.2 { rank := leftRank, noIn }
      Print.space
      if isWordOperator op then Print.word op else Print.operator op
      Print.space
      right.2 { rank := rightRank, noIn }
  | .conditional test yes no => some fun slot =>
    let isWrapped := Rank.conditional ≤ slot.rank
    let noIn := slot.noIn && !isWrapped
    Print.wrapped isWrapped do
      test.2 { rank := .conditional, noIn }
      Print.text " ? "
      yes.2 { rank := .yield }
      Print.text " : "
      no.2 { rank := .yield, noIn }
  | .assign op target value => some fun slot => do
    let isPattern := match target.shape with
      | .objectPattern _ => true
      | _ => false
    let isWrapped := (isPattern && (← beginsBlock)) || Rank.assign ≤ slot.rank
    Print.wrapped isWrapped do
      target.2 { rank := .comma, noIn := slot.noIn, isPart := true }
      Print.text (" " ++ op ++ " ")
      value.2 { rank := .comma, noIn := slot.noIn && !isWrapped }
  | .sequence items => some fun slot =>
    Print.wrapped (Rank.comma ≤ slot.rank)
      (Print.separated (items.map fun p => p.2 { noIn := slot.noIn }))
  | .await value => some fun slot =>
    Print.wrapped (Rank.leading ≤ slot.rank) do
      Print.word "await "
      value.2 { rank := .power }
  | .yield delegates value => some fun slot =>
    Print.wrapped (Rank.assign ≤ slot.rank) do
      Print.word (if delegates then "yield*" else "yield")
      match value with
      | some value =>
        Print.space
        value.2 { rank := .yield }
      | none => pure ()
  | .paren value => some fun slot => value.2 slot
  | .spread value => some fun _ => do
    Print.text "..."
    value.item
  | .hole => some fun _ => pure ()
  | .array items => some fun _ => do
    Print.text "["
    listed (2 < items.length) (pure ())
      (arrayItems items)
    if endsWithHole items then Print.text ","
    Print.text "]"
  | .object members => some fun _ => do
    Print.wrapped (← beginsBlock) do
      Print.text "\x7b"
      listed (1 < members.length) Print.space
        (members.map fun p => p.2 { isPart := true })
      Print.text "\x7d"
  | .property computed key value => some fun _ => do
    if !isShorthand computed key.1 value.1 then
      writeKey computed key
      Print.text ": "
    value.item
  | .shorthand value => some fun _ => value.item
  | .decorator value => some fun _ => do
    Print.text "@"
    Print.wrapped (!isPlainDecorator value.1) value.whole
  | _ => none

/-- How a pattern is written. -/
def pattern? : Shape Piece → Option Printed
  | .arrayPattern items => some fun slot => do
    let (items, rest) := splitRest items
    let written := { slot with rank := .comma }
    Print.text "["
    Print.separated (items.map fun p => p.2 written)
    if rest.isSome && !items.isEmpty || endsWithHole items then Print.text ","
    match rest with
    | some rest =>
      if !items.isEmpty || !slot.isPart then Print.space
      rest.2 written
    | none => pure ()
    Print.text "]"
  | .objectPattern members => some fun slot => do
    let (items, rest) := splitRest members
    let written := { slot with rank := .comma }
    if slot.isPart then
      Print.text "\x7b"
      Print.separated (items.map fun p => p.2 written)
      match rest with
      | some rest =>
        if !items.isEmpty then Print.text ","
        rest.2 written
      | none => pure ()
      Print.text "\x7d"
    else
      Print.text "\x7b"
      listed false Print.space (members.map fun p => p.2 written)
      Print.text "\x7d"
  | .patternProperty computed key target => some fun slot => do
    if slot.isPart || !bindsOwnName computed key.1 target.1 then
      writeKey computed key
      Print.text ": "
    target.2 { slot with rank := .comma }
  | .patternShorthand target => some fun slot => target.2 { slot with rank := .comma }
  | .defaulted target value => some fun slot => do
    target.2 { slot with rank := .comma }
    Print.text " = "
    value.item
  | .rest target => some fun slot => do
    Print.text "..."
    target.2 { slot with rank := .comma }
  | .annotated target _ => some fun slot => target.2 slot
  | _ => none

end DepBundle.Print
