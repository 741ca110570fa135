import DepBundle.Number.Arithmetic
import DepBundle.Syntax.Fresh
/-!
# Plain programs — constants

The values that initializers of enumerations have before the program runs.
An initializer may refer to members before it and to those of enumerations
before its own.
-/

namespace DepBundle.Plain

open Syntax Number

/-- A value known before the program runs. -/
inductive Constant where
  | number (value : Float)
  | text (value : String)

/-- The members of an enumeration with the values that are known, latest
first. -/
abbrev Members := List (String × Option Constant)

namespace Constant

/-- The text of a value. -/
def shown : Constant → String
  | number value => floatText value
  | text value => value

/-- What an operator makes of two numbers. -/
def combine? (op : String) (a b : Float) : Option Float :=
  let amount := (lowBits b).toNat % 32
  match op with
  | "+" => some (a + b)
  | "-" => some (a - b)
  | "*" => some (a * b)
  | "/" => some (a / b)
  | "%" => some (remainder a b)
  | "**" => some (a.pow b)
  | "|" => some (ofBits (lowBits a ||| lowBits b))
  | "&" => some (ofBits (lowBits a &&& lowBits b))
  | "^" => some (ofBits (lowBits a ^^^ lowBits b))
  | "<<" => some (ofBits (lowBits a <<< amount))
  | ">>" => some (ofBits ((lowBits a).sshiftRight amount))
  | ">>>" => some (Float.ofNat ((lowBits a) >>> amount).toNat)
  | _ => none

/-- What an operator makes of two values. -/
def binary? (op : String) : Constant → Constant → Option Constant
  | number a, number b => (combine? op a b).map number
  | a, b => if op = "+" then some (text (a.shown ++ b.shown)) else none

/-- What an operator makes of a value. A text is no number. -/
def unary? (op : String) : Constant → Option Constant
  | number a =>
    match op with
    | "+" => some (number a)
    | "-" => some (number (-a))
    | "~" => some (number (ofBits (~~~ lowBits a)))
    | _ => none
  | text _ =>
    match op with
    | "+" | "-" => some (number notANumber)
    | "~" => some (number (-1))
    | _ => none

/-- The value of a name. -/
def ofName? (own : Members) (name : String) : Option Constant :=
  if name = "Infinity" then some (number infinity)
  else if name = "NaN" then some (number notANumber)
  else (own.lookup name).join

/-- The value of a member of an enumeration. -/
def ofMember? (known : List (String × Members)) (object : Node) (name : String) :
    Option Constant :=
  match object.shape with
  | .reference w => (known.lookup w).bind fun members => (members.lookup name).join
  | _ => none

/-- The value of an expression, given the members before it and the
enumerations before its own. -/
def ofExpression? (known : List (String × Members)) (own : Members) (node : Node) :
    Option Constant :=
  node.para fun _ shape =>
    match shape with
    | .number numeral =>
      some (number (floatOfNumeral (String.ofList (numeral.toList.filter (· != '_')))))
    | .string value => some (text value)
    | .template texts _ => some (text (String.join texts))
    | .reference name => ofName? own name
    | .member false object name =>
      match name.1.shape with
      | .word w => ofMember? known object.1 w
      | _ => none
    | .index false object subscript =>
      match subscript.1.shape with
      | .string w => ofMember? known object.1 w
      | _ => none
    | .paren value => value.2
    | .unary op value => value.2.bind (unary? op)
    | .binary op left right => do
      let a ← left.2
      let b ← right.2
      binary? op a b
    | _ => none

/-- The expression that writes a value. -/
def written : Constant → Node
  | text value => Node.ofString value
  | number value =>
    let magnitude := if isNegative value then -value else value
    let node :=
      if value.isNaN then Node.ofName "NaN"
      else if magnitude == infinity then Node.ofName "Infinity"
      else Node.made (.number (floatText magnitude))
    if isNegative value then Node.made (.unary "-" node) else node

end Constant

end DepBundle.Plain
