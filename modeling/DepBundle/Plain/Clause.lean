import DepBundle.Plain.TypeOnly
import DepBundle.Syntax.Fresh
/-!
# Plain programs — imports and exports of types

What is left of the clauses that tie a module to others once types are
gone. An import stays where one of its names is used as a value. A program
that was a module by clauses that are gone says so by an empty one.
-/

namespace DepBundle.Plain

open Syntax

/-- Whether a statement ties a module to others. -/
def isClause (node : Node) : Bool :=
  match node.shape with
  | .importDecl .. | .exportAll .. | .exportFrom .. | .exportNames .. | .exportDecl _
  | .exportDefault _ => true
  | _ => false

/-- Whether an exported name is that of a type. -/
def exportsType (types : List String) (item : Node) : Bool :=
  match item.shape with
  | .exportNamed typeOnly inner _ => typeOnly || match inner.shape with
    | .reference w => types.contains w
    | _ => false
  | _ => false

/-- What is left of an export, given the names that are types only. Other
statements are kept. -/
def keptExport? (types : List String) (node : Node) : Option Node :=
  match node.shape with
  | .exportAll typeOnly .. => if typeOnly then none else some node
  | .exportFrom typeOnly items source stated =>
    let kept := items.filter (!tiesType ·)
    if typeOnly || (kept.isEmpty && !items.isEmpty) then none
    else some ⟨node.span, .exportFrom false kept source stated⟩
  | .exportNames typeOnly items =>
    let kept := items.filter (!exportsType types ·)
    if typeOnly || (kept.isEmpty && !items.isEmpty) then none
    else some ⟨node.span, .exportNames false kept⟩
  | .exportDecl inner => if isTypeOnly inner then none else some node
  | .exportDefault value =>
    match value.shape with
    | .reference w => if types.contains w then none else some node
    | _ => if isTypeOnly value then none else some node
  | _ => some node

/-- What is left of an import, given the names that are used. Other
statements are kept. -/
def keptImport? (used : List String) (node : Node) : Option Node :=
  match node.shape with
  | .importDecl typeOnly hasClause items source stated =>
    let kept := items.filter fun item => !tiesType item && item.lexicalNames.all used.contains
    if typeOnly || (kept.isEmpty && !items.isEmpty) then none
    else some ⟨node.span, .importDecl false (hasClause && !items.isEmpty) kept source stated⟩
  | _ => some node

/-- Whether there is markup in a tree. -/
def hasMarkup (node : Node) : Bool :=
  node.para fun _ shape =>
    match shape with
    | .element .. | .fragment _ => true
    | shape => shape.children.any (·.2)

/-- The statements of a program. -/
def programStatements (program : Node) : List Node :=
  match program.shape with
  | .program items => items
  | _ => []

/-- A program without clauses for types, given the program while it still
had its types. What makes elements of markup is used by it. -/
def withoutTypeClauses (typed program : Node) : Node :=
  let values := (programStatements typed).flatMap valueNames
  let types := ((programStatements typed).flatMap typeNames).filter (!values.contains ·)
  let makesElements := hasMarkup program
  let items := programStatements program
  let exporting := items.filterMap (keptExport? types)
  let used := exporting.flatMap usedNames ++ if makesElements then ["React"] else []
  let kept := exporting.filterMap (keptImport? used)
  let isBare := items.any isClause && !kept.any isClause && !makesElements
  let mark := if isBare then [Node.made (.exportNames false [])] else []
  ⟨program.span, .program (kept ++ mark)⟩

end DepBundle.Plain
