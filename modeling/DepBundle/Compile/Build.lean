import DepBundle.Chunk.Render
import DepBundle.FileTree.Change
import DepBundle.Graph.Loading
/-!
# Compiling — from a request to output files

A compile loads the program, links it, splits it into chunks and renders
those. Only then, and only where it is asked to, does it write: the files
are written one after another, up to the first that cannot be.

Whoever needs something compiled goes through a compiler: a way to carry
out requests, in a world that it changes. The one over files reads the
program from a tree and writes its outputs there.
-/

namespace DepBundle.Compile

/-- What a compile produces. -/
structure Outcome where
  files : List Output.File
  warnings : List Warning

/-- The output files for a graph. -/
def generate (current : Path) (s : Settings) (linked : Graph.Linked) : List Output.File :=
  let split := ChunkGraph.split linked s.inlineDynamicImports
  let r : ChunkGraph.Rendering := ⟨split, split.fileNames s, current⟩
  r.files

/-- What a compile produces, nothing being written. -/
def outcome (t : FileTree) (s : Settings) : Except (List Failure) Outcome := do
  let (graph, warnings) ← Graph.load ⟨t, s⟩
  return ⟨generate t.workingDirectory s graph.link, warnings⟩

/-- Writes files below a directory, up to the first that cannot be written. -/
def writeAll (directory : Path) :
    List Output.File → FileTree → Except (List Failure) Unit × FileTree
  | [], t => (.ok (), t)
  | file :: files, t =>
    let path := directory.join ⟨file.fileName⟩
    match t.write? path file.content with
    | some t => writeAll directory files t
    | none => (.error [.unwritable path], t)

/-- Carries out a request. -/
def build (r : Request) (t : FileTree) : Except (List Failure) Outcome × FileTree :=
  let s := r.settings t.workingDirectory
  match outcome t s with
  | .error failures => (.error failures, t)
  | .ok outcome =>
    if s.write then
      match writeAll s.outputDir outcome.files t with
      | (.ok (), t) => (.ok outcome, t)
      | (.error failures, t) => (.error failures, t)
    else (.ok outcome, t)

/-- A way to carry out requests, in a world that it changes. -/
structure Compiler (World : Type) where
  compile : Request → World → Except (List Failure) Outcome × World

/-- The compiler over files. -/
def Compiler.onFiles : Compiler FileTree := ⟨build⟩

end DepBundle.Compile
