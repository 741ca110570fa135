import DepBundle.Chunk.FileName
import DepBundle.Chunk.Split
import DepBundle.Compile.Options
import DepBundle.Digest.Short
import DepBundle.Package.Specifier
/-!
# Chunks — names of output files

Each output file gets a name of its own. Files that would share a name are
told apart by a count after the name, from two on, in the order they are
named: chunks first, then assets.
-/

namespace DepBundle.ChunkGraph

open DepBundle.Graph

/-- How long digests in file names are. -/
def digestLength : Nat := 8

/-- A file to be named. -/
structure Unnamed where
  template : String
  name : String
  digest : String
  extension : Option String := none

/-- The name of a file at a count; the first count is not written. -/
def Unnamed.at (u : Unnamed) (count : Nat) : String :=
  let name := if count < 2 then u.name else u.name ++ toString count
  FileName.render u.template name (some u.digest) u.extension

/-- The first name from a count on that is not used, among `n` and one more. -/
def Unnamed.unused (u : Unnamed) (used : List String) : (n count : Nat) → String
  | 0, count => u.at count
  | n + 1, count =>
    if used.contains (u.at count) then u.unused used n (count + 1) else u.at count

/-- The names of files, each the first that no file before it has. A name
without a count may come out like one with a count, so one name more is
tried than it takes to find one of different names. -/
def nameAll (used : List String) : List Unnamed → List String
  | [] => []
  | u :: rest =>
    let name := u.unused used (used.length + 1) 1
    name :: nameAll (name :: used) rest

/-- A readable name for a module's file. -/
def readableName (id : String) : String := Package.sanitize (Path.mk id).representativeName

/-- The name of a chunk: the one given to it, or after its entry, or after
the module that runs last. -/
def nameOf (c : Chunk) : String :=
  match c.name, c.entry? with
  | some name, _ => name
  | none, some id => readableName id
  | none, none => (c.modules.getLast?.map readableName).getD "chunk"

/-- The digest of a chunk: of the keys of its modules and of its entry, in
order. -/
def digestOf (s : ChunkGraph) (c : Chunk) : String :=
  let keys := (c.modules ++ c.entry?.toList).map s.graph.keyOf
  Digest.short ("\n".intercalate (keys.mergeSort (· ≤ ·))).toUTF8 digestLength

/-- A chunk as a file to be named. -/
def unnamedChunk (s : ChunkGraph) (settings : Compile.Settings) (c : Chunk) : Unnamed where
  template := if c.isUserDefined then settings.entryFileNames else settings.chunkFileNames
  name := nameOf c
  digest := s.digestOf c

/-- The files passed on as they are, with the ids of their modules. -/
def assets (g : Graph) : List (String × ByteArray) :=
  g.modules.filterMap fun m =>
    match m.body with
    | .asset content => some (m.id, content)
    | .script _ => none

/-- An asset as a file to be named. -/
def unnamedAsset (settings : Compile.Settings) (asset : String × ByteArray) : Unnamed where
  template := settings.assetFileNames
  name := Package.sanitize ((Path.mk asset.1).stem?.getD "asset")
  digest := Digest.short asset.2 digestLength
  extension := (Path.mk asset.1).extension?

/-- The names of the output files. -/
structure FileNames where
  /-- Of chunks, by their numbers. -/
  chunks : List (Nat × String)
  /-- Of assets, by the ids of their modules. -/
  assets : List (String × String)

/-- The name of the chunk with a number. -/
def FileNames.ofChunk (names : FileNames) (number : Nat) : String :=
  (names.chunks.lookup number).getD ""

/-- The name of the asset that a module is. -/
def FileNames.ofAsset (names : FileNames) (id : String) : String :=
  (names.assets.lookup id).getD ""

/-- Names the output files. -/
def fileNames (s : ChunkGraph) (settings : Compile.Settings) : FileNames :=
  let order := s.order
  let chunks := (order.filterMap fun number => s.chunks[number]?).map (s.unnamedChunk settings)
  let assets := assets s.graph
  let names := nameAll [] (chunks ++ assets.map (unnamedAsset settings))
  { chunks := order.zip (names.take chunks.length)
    assets := (assets.map (·.1)).zip (names.drop chunks.length) }

end DepBundle.ChunkGraph
