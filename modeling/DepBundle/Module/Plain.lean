import DepBundle.Module.Source
import DepBundle.Plain.Dispensable
import DepBundle.Plain.Erasure
import DepBundle.Plain.Markup
import DepBundle.Plain.Namespace
import DepBundle.Print.Program
/-!
# Modules — sources without types and markup

A source is read in the dialect of its file, types and then markup are
taken out of its tree, and what is left is written as a program that runs.
-/

namespace DepBundle.Module

open Syntax

/-- A program without what only typed dialects can write. -/
def untyped? (program : Node) : Option Node := do
  let program ← Plain.withoutNamespaces? program
  return Plain.withoutTypeClauses program (Plain.withoutTypes program)

/-- The tree of a program without types and markup. -/
def plainTree? (dialect : Dialect) (program : Node) : Option Node := do
  let program ← if dialect.typed then untyped? program else some program
  if dialect.markup then Plain.withoutMarkup? program else some program

/-- A source without types and markup; nothing where it cannot be read or
no such program stands for it. -/
def plainSource? (path : Path) (source : String) : Option String := do
  let dialect := dialectOf path
  let program ← Program.parse? dialect source
  let places := Plain.dispensablePlaces source program.comments
  let tree ← plainTree? dialect (Plain.withDispensable places program.tree)
  return Print.ofTree source program.comments tree

end DepBundle.Module
