import DepBundle.Print.Remark
import DepBundle.Syntax.Node
/-!
# Plain programs — calls that may be left out

A comment before an expression may say that the call it is may be left out
where nothing needs its value. It is about the whole operand behind it: one
before the object of a member says nothing about a call in it.
-/

namespace DepBundle.Plain

open Syntax

/-- Where expressions begin that comments say may be left out. -/
def dispensablePlaces (source : String) (comments : List Comment) : List Nat :=
  ((Print.Remark.all source comments).filter (·.saysDispensable)).map (·.place)

/-- An operand marked as a call that may be left out, where it is a call
and begins at one of the places. -/
def markedOperand (places : List Nat) (operand : Node) : Node :=
  if !places.contains operand.span.start then operand
  else match operand.shape with
    | .call .. | .construct .. => ⟨operand.span, .dispensable operand⟩
    | .paren value =>
      match value.shape with
      | .call .. | .construct .. =>
        ⟨operand.span, .paren ⟨value.span, .dispensable value⟩⟩
      | _ => operand
    | .chain value =>
      match value.shape with
      | .call .. => ⟨operand.span, .dispensable operand⟩
      | _ => operand
    | _ => operand

/-- A tree with its operands marked. What an operand itself begins with is
not an operand. -/
def markStep (places : List Nat) (span : Span) (shape : Shape (Node × Node)) : Node :=
  let marked := fun (p : Node × Node) => markedOperand places p.2
  match shape with
  | .member .. | .unary .. | .update .. | .await .. | .nonNull .. | .instantiation .. | .chain ..
  | .taggedTemplate .. | .decorator .. | .classDef .. | .dispensable .. =>
    ⟨span, shape.map (·.2)⟩
  | .index optional object subscript => ⟨span, .index optional object.2 (marked subscript)⟩
  | .call optional callee typeArgs args =>
    ⟨span, .call optional callee.2 (typeArgs.map (·.2)) (args.map marked)⟩
  | .construct callee typeArgs args =>
    ⟨span, .construct callee.2 (typeArgs.map (·.2)) (args.map marked)⟩
  | shape => ⟨span, shape.map marked⟩

/-- A tree in which calls are marked that comments say may be left out. -/
def withDispensable (places : List Nat) (tree : Node) : Node :=
  if places.isEmpty then tree else tree.para (markStep places)

end DepBundle.Plain
