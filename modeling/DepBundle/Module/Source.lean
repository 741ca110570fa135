import DepBundle.Module.Id
import DepBundle.Syntax.Program
/-!
# Modules — how sources are read

Which dialect a source is in, by the name of its file, and the specifiers
that its statements name.
-/

namespace DepBundle.Module

open Syntax

/-- The dialect of a source by its file. Where the name leaves it open, a
source is read as a module if that is what it is and as a script
otherwise. -/
def FileType.dialect (type : FileType) (path : Path) : Dialect :=
  match type, path.extension? with
  | .js, some "mjs" => { isModule := true }
  | .js, some "cjs" => { isScript := true }
  | .jsx, _ => { isModule := true, markup := true }
  | .ts, some "cts" => { isScript := true, typed := true }
  | .ts, _ => { isModule := true, typed := true }
  | .tsx, _ => { isModule := true, typed := true, markup := true }
  | _, _ => {}

/-- The dialect of the source in a file. -/
def dialectOf (path : Path) : Dialect := (FileType.ofPath path).dialect path

/-- What a statement names as the module it imports from. -/
def statementSource? (node : Node) : Option String :=
  match node.shape with
  | .importDecl _ _ _ source _ | .exportAll _ _ source _ | .exportFrom _ _ source _ =>
    some source.clauseText
  | _ => none

/-- What the statements of a program import from, in order. -/
def staticImports (program : Program) : List String :=
  match program.tree.shape with
  | .program items => items.filterMap statementSource?
  | _ => []

end DepBundle.Module
