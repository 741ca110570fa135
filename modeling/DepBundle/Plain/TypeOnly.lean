import DepBundle.Syntax.Scope
/-!
# Plain programs — what exists as a type only

Declarations that nothing is left of when a program runs, the names that
statements declare as values, and those they use as values.
-/

namespace DepBundle.Plain

open Syntax

/-- Whether a statement declares types only, or what is defined elsewhere. -/
def isTypeOnly (node : Node) : Bool :=
  match node.shape with
  | .typeDecl .. | .declare _ true _ | .enumDecl true .. | .namespaceDecl true .. => true
  | .classDef flags .. => flags.isAmbient
  | .function _ _ _ _ _ body => body.isNone
  | .importEquals typeOnly .. => typeOnly
  | _ => false

/-- What an export declares, if it declares something. -/
def exported? (node : Node) : Option Node :=
  match node.shape with
  | .exportDecl declaration => some declaration
  | _ => none

/-- What a statement declares, exported or not. -/
def declaration (node : Node) : Node := (exported? node).getD node

/-- Whether a part of a clause ties a type. -/
def tiesType (item : Node) : Bool :=
  match item.shape with
  | .importNamed typeOnly _ _ | .exportNamed typeOnly _ _ => typeOnly
  | _ => false

/-- The names that a statement declares as values. -/
def valueNames (node : Node) : List String :=
  match node.shape with
  | .importDecl typeOnly _ items _ _ =>
    if typeOnly then [] else (items.filter (!tiesType ·)).flatMap Node.lexicalNames
  | _ => if isTypeOnly (declaration node) then [] else node.lexicalNames ++ node.varNames

/-- The names that a statement declares as types. -/
def typeNames (node : Node) : List String :=
  match node.shape with
  | .importDecl typeOnly _ items _ _ =>
    (items.filter fun item => typeOnly || tiesType item).flatMap Node.lexicalNames
  | _ =>
    if isTypeOnly (declaration node) then
      (declaration node).lexicalNames ++ (declaration node).varNames
    else []

/-- The names that a statement uses as values. -/
def usedNames (node : Node) : List String :=
  match node.shape with
  | .exportNames typeOnly items =>
    if typeOnly then [] else (items.filter (!tiesType ·)).flatMap Node.freeNames
  | .importDecl .. => []
  | _ => if isTypeOnly (declaration node) then [] else node.freeNames

end DepBundle.Plain
