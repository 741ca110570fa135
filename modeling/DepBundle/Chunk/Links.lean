import DepBundle.Chunk.Split
/-!
# Chunks — what chunks need of one another

A chunk imports the registries of the chunks that hold what its modules
ask for, and of the chunk that holds its entry where that is another one.
-/

namespace DepBundle.ChunkGraph

open DepBundle.Graph

/-- What a chunk needs. -/
structure Links where
  /-- The numbers of the chunks whose registries it imports. -/
  chunks : OrderedSet Nat := .empty
  /-- The modules of the host that it imports. -/
  externals : OrderedSet String := .empty
  /-- The modules it may load later, with the numbers of their chunks. -/
  dynamic : OrderedSet (String × Nat) := .empty

/-- Adds what a module that has to be there brings along. -/
def needModule (s : ChunkGraph) (number : Nat) (links : Links) (id : String) : Links :=
  if s.graph.isExternal id then { links with externals := links.externals.insert id }
  else
    match s.chunkOf? id with
    | some other =>
      if other = number then links else { links with chunks := links.chunks.insert other }
    | none => links

/-- Adds what a module that may be loaded later brings along. -/
def needLater (s : ChunkGraph) (links : Links) (id : String) : Links :=
  match s.entryChunkOf? id with
  | some number => { links with dynamic := links.dynamic.insert (id, number) }
  | none => links

/-- Adds what a module of the chunk asks for. -/
def needsOf (s : ChunkGraph) (number : Nat) (links : Links) (id : String) : Links :=
  let links := (s.graph.dependencies id).toList.foldl (needModule s number) links
  let later := (s.graph.dynamicDependencies id).toList
  if s.inlined then later.foldl (needModule s number) links
  else later.foldl (needLater s) links

/-- Adds the chunk that holds the entry. -/
def needEntry (s : ChunkGraph) (number : Nat) (links : Links) : Option String → Links
  | none => links
  | some id =>
    match s.chunkOf? id with
    | some other =>
      if other = number then links else { links with chunks := links.chunks.insert other }
    | none => links

/-- What the chunk with a number needs. -/
def linksOf (s : ChunkGraph) (number : Nat) (c : Chunk) : Links :=
  needEntry s number (c.modules.foldl (needsOf s number) {}) c.entry?

end DepBundle.ChunkGraph
