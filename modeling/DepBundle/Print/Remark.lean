import DepBundle.Syntax.Token
/-!
# Printing — remarks

A comment is kept with what follows it. One that stands behind something on
the same line, with nothing after it there, belongs to what is before it
and is not kept. What an opening parenthesis or an equals sign leaves open
is still to come, so a comment behind those is kept all the same.
-/

namespace DepBundle.Print

open Syntax

/-- A comment with where what it belongs to begins. -/
structure Remark where
  comment : Comment
  place : Nat
  /-- Whether a line ends right before it. -/
  afterBreak : Bool
  /-- Whether a line ends right behind it. -/
  beforeBreak : Bool
deriving DecidableEq, Repr, Inhabited

namespace Remark

/-- A character between tokens. -/
def isGap (c : Char) : Bool := isBlankChar c || isLineBreak c

/-- Whether what is before a comment leaves something open: it ends with an
opening parenthesis or an equals sign of its own. -/
def leavesOpen (before : List Char) : Bool :=
  match before.reverse with
  | '(' :: _ => true
  | '=' :: c :: _ => !"=!<>+-*/%&|^?".toList.contains c
  | ['='] => true
  | _ => false

/-- The comments since the last token, latest first, and whether a line
ended since. -/
structure Waiting where
  remarks : List Remark := []
  sawBreak : Bool := true
  /-- Whether the last token leaves something open. -/
  isOpen : Bool := false

/-- What is waiting once a line has ended. -/
def Waiting.breakLine (w : Waiting) : Waiting :=
  let ended := match w.remarks with
    | latest :: earlier => { latest with beforeBreak := true } :: earlier
    | [] => []
  { w with remarks := if w.sawBreak then ended else [], sawBreak := true }

/-- What is waiting once a comment has been passed. -/
def Waiting.add (w : Waiting) (c : Comment) : Waiting :=
  let remark : Remark := ⟨c, 0, w.sawBreak, !c.isBlock⟩
  if c.isBlock then { w with remarks := remark :: w.remarks }
  else if !w.sawBreak && !w.isOpen then { w with remarks := [], sawBreak := true }
  else { w with remarks := remark :: w.remarks, sawBreak := true }

/-- Goes on to the text before the next comment: what is waiting after it,
and the remarks of a token that begins in it. -/
def Waiting.pass (w : Waiting) (start : Nat) (text : List Char) : Waiting × List Remark :=
  let blank := text.takeWhile isGap
  let w := if blank.any isLineBreak then w.breakLine else w
  if blank.length = text.length then (w, [])
  else
    let tail := (text.reverse.takeWhile isGap).reverse
    let before := text.take (text.length - tail.length)
    ({ remarks := [], sawBreak := tail.any isLineBreak, isOpen := leavesOpen before },
      w.remarks.reverse.map fun r => { r with place := start + blank.length })

/-- The remarks among comments, given the source from `start` on. -/
def collect : (start : Nat) → List Char → Waiting → List Comment → List Remark
  | start, cs, w, [] =>
    let (w, done) := w.pass start cs
    done ++ w.remarks.reverse.map fun r => { r with place := start + cs.length }
  | start, cs, w, c :: comments =>
    let (w, done) := w.pass start (cs.take (c.start - start))
    done ++ collect c.stop (cs.drop (c.stop - start)) (w.add c) comments

/-- Whether a comment says that the call behind it may be left out. -/
def saysDispensable (r : Remark) : Bool :=
  ["@__PURE__", "#__PURE__"].any fun word => Text.hasWord word.toList r.comment.text.toList

/-- The remarks among the comments of a source. -/
def all (source : String) (comments : List Comment) : List Remark :=
  collect 0 source.toList {} comments

/-- The remarks that are kept as they are. What one says about a call is
written with the call. -/
def kept (source : String) (comments : List Comment) : List Remark :=
  (all source comments).filter (!·.saysDispensable)

end Remark

end DepBundle.Print
