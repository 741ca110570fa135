import DepBundle.Chunk.EntryBits
import DepBundle.Graph.Linked
/-!
# Chunks — splitting a program

A chunk holds the modules that are reached by the same entries. Each entry
has a chunk of its own, for what it alone reaches; what several reach
together is in common chunks.
-/

namespace DepBundle

/-- What a chunk is for. -/
inductive ChunkKind where
  /-- The chunk of an entry. -/
  | entry (id : String) (isUserDefined : Bool)
  | common
deriving DecidableEq, Repr

/-- A part of the output. -/
structure Chunk where
  kind : ChunkKind
  /-- The entries that reach its modules. -/
  bits : EntryBits
  /-- The name given to it, if any. -/
  name : Option String := none
  /-- Its modules in the order they run. -/
  modules : List String := []

namespace Chunk

/-- The entry of the chunk. -/
def entry? (c : Chunk) : Option String :=
  match c.kind with
  | .entry id _ => some id
  | .common => none

/-- Whether the chunk is that of an entry asked for as one. -/
def isUserDefined (c : Chunk) : Bool :=
  match c.kind with
  | .entry _ isUserDefined => isUserDefined
  | .common => false

/-- Where the chunk comes among others: entries first, common chunks last. -/
def rank (c : Chunk) : Nat :=
  match c.kind with
  | .entry _ true => 0
  | .entry _ false => 1
  | .common => 2

end Chunk

/-- The chunks of a program. -/
structure ChunkGraph where
  linked : Graph.Linked
  /-- Whether `import()` stays inside the chunk it stands in. -/
  inlined : Bool
  chunks : List Chunk

namespace ChunkGraph

open DepBundle.Graph

/-- The entries that have chunks: those made by `import()` only where it
leaves its chunk. -/
def chunkEntries (g : Graph) (inlined : Bool) : List Graph.Entry :=
  g.entries.filter fun e => !inlined || e.isUserDefined

/-- What comes into a chunk with a module. -/
def companions (g : Graph) (inlined : Bool) (id : String) : List String :=
  let dynamic := if inlined then (g.dynamicDependencies id).toList else []
  ((g.dependencies id).toList ++ dynamic).filter fun id => (g.bundled? id).isSome

/-- The modules that an entry reaches. -/
def reached (g : Graph) (inlined : Bool) (entry : Graph.Entry) : List String :=
  postOrder (companions g inlined) g.vertices.size
    ([entry.id].filter fun id => (g.bundled? id).isSome)

/-- The entries that reach a module, given what each reaches. -/
def bitsOf (reaches : List (List String)) (id : String) : EntryBits :=
  reaches.zipIdx.foldl (fun bits (ids, number) =>
    if ids.contains id then bits.insert number else bits) (.ofSize reaches.length)

/-- The chunk of an entry, while it is empty. -/
def entryChunk (count : Nat) (number : Nat) (entry : Graph.Entry) : Chunk where
  kind := .entry entry.id entry.isUserDefined
  bits := (EntryBits.ofSize count).insert number
  name := entry.name

/-- Puts a module into the chunk of the entries that reach it, a new common
chunk if there is none. -/
def place (bits : EntryBits) (id : String) : List Chunk → List Chunk
  | [] => [{ kind := .common, bits, modules := [id] }]
  | c :: cs =>
    if c.bits = bits then { c with modules := c.modules ++ [id] } :: cs
    else c :: place bits id cs

/-- The chunks of a program. What no entry reaches is in none. -/
def split (l : Linked) (inlined : Bool) : ChunkGraph :=
  let entries := chunkEntries l.graph inlined
  let reaches := entries.map (reached l.graph inlined)
  let start := entries.zipIdx.map fun (entry, number) => entryChunk entries.length number entry
  let chunks := l.sorted.foldl (fun chunks id =>
    let bits := bitsOf reaches id
    if bits.isEmpty then chunks else place bits id chunks) start
  ⟨l, inlined, chunks⟩

/-- The graph of modules. -/
def graph (s : ChunkGraph) : Graph := s.linked.graph

/-- The number of the chunk that holds a module. -/
def chunkOf? (s : ChunkGraph) (id : String) : Option Nat :=
  s.chunks.findIdx? (·.modules.contains id)

/-- The number of the last chunk whose entry is a module. It need not hold
the module. -/
def entryChunkOf? (s : ChunkGraph) (id : String) : Option Nat :=
  (s.chunks.zipIdx.reverse.find? fun (c, _) => c.entry? = some id).map (·.2)

/-- When the first module of a chunk runs; an empty chunk comes after all
others. -/
def start (s : ChunkGraph) (c : Chunk) : Nat :=
  ((c.modules.filterMap s.linked.position?).min?).getD s.linked.order.length

/-- The numbers of the chunks in the order they are given out: by rank, and
within a rank by when they start. -/
def order (s : ChunkGraph) : List Nat :=
  (s.chunks.zipIdx.mergeSort fun (a, _) (b, _) =>
    a.rank < b.rank || (a.rank = b.rank && s.start a ≤ s.start b)).map (·.2)

end ChunkGraph

end DepBundle
