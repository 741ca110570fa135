import DepBundle.Compile.Build
import DepBundle.Proofs.Chunk.Naming
import DepBundle.Proofs.Graph.Renumbering
/-!
# Chunks — the output and the order of the modules in the graph

Splitting, linking and rendering look modules up, and walk them in the order
they run. So the chunks of a program do not depend on the order in which its
graph holds the modules (`Alike`), except through the names of its assets:
these are given out in that order.
-/

namespace DepBundle.ChunkGraph

open DepBundle.Graph

/-- The asset that a module is, with its id. -/
def asset? (m : Bundled) : Option (String × ByteArray) :=
  match m.body with
  | .asset content => some (m.id, content)
  | .script _ => none

/-- **Chunks of graphs that are the same but for the order of their
modules.** -/
structure Alike (s s' : ChunkGraph) : Prop where
  graph : Renumbered s.graph s'.graph
  order : s.linked.order = s'.linked.order
  exports : s.linked.exports = s'.linked.exports
  inlined : s.inlined = s'.inlined
  chunks : s.chunks = s'.chunks

theorem reached_renumbered {g g' : Graph} (h : Renumbered g g') (inlined : Bool) :
    reached g inlined = reached g' inlined := by
  have hcompanions : companions g inlined = companions g' inlined := by
    funext id
    simp only [companions, h.dynamicDependencies, h.dependencies, h.isSome_bundled]
  funext entry
  simp only [reached, hcompanions, h.size, h.isSome_bundled]

/-- **A program is split by what modules ask for.** -/
theorem alike_split {g g' : Graph} (h : Renumbered g g') (inlined : Bool) :
    Alike (split g.link inlined) (split g'.link inlined) where
  graph := h
  order := h.order
  exports := h.exports
  inlined := rfl
  chunks := by
    have hentries : chunkEntries g inlined = chunkEntries g' inlined := by
      rw [chunkEntries, chunkEntries, h.entries]
    have hgraph : ∀ g : Graph, g.link.graph = g := fun _ => rfl
    simp only [split, hgraph, h.sorted, hentries, reached_renumbered h]

namespace Alike

variable {s s' : ChunkGraph}

/-! ## Where modules are -/

theorem chunkOf? (h : Alike s s') : s.chunkOf? = s'.chunkOf? := by
  funext id
  rw [ChunkGraph.chunkOf?, ChunkGraph.chunkOf?, h.chunks]

theorem entryChunkOf? (h : Alike s s') : s.entryChunkOf? = s'.entryChunkOf? := by
  funext id
  rw [ChunkGraph.entryChunkOf?, ChunkGraph.entryChunkOf?, h.chunks]

/-- The chunks are given out in the same order. -/
theorem order_eq (h : Alike s s') : s.order = s'.order := by
  have hposition : s.linked.position? = s'.linked.position? := by
    funext id
    rw [Linked.position?, Linked.position?, h.order]
  have hstart : s.start = s'.start := by
    funext c
    rw [start, start, hposition, h.order]
  rw [ChunkGraph.order, ChunkGraph.order, h.chunks, hstart]

theorem linksOf (h : Alike s s') : s.linksOf = s'.linksOf := by
  have hmodule : s.needModule = s'.needModule := by
    funext number links id
    simp only [needModule, h.graph.isExternal, h.chunkOf?]
  have hlater : s.needLater = s'.needLater := by
    funext links id
    simp only [needLater, h.entryChunkOf?]
  have hneeds : s.needsOf = s'.needsOf := by
    funext number links id
    simp only [needsOf, h.graph.dependencies, h.graph.dynamicDependencies, h.inlined, hmodule,
      hlater]
  have hentry : s.needEntry = s'.needEntry := by
    funext number links entry
    cases entry with
    | none => rfl
    | some id => simp only [needEntry, h.chunkOf?]
  funext number c
  rw [ChunkGraph.linksOf, ChunkGraph.linksOf, hneeds, hentry]

theorem exportsOf (h : Alike s s') : s.linked.exportsOf = s'.linked.exportsOf := by
  funext id
  rw [Linked.exportsOf, Linked.exportsOf, h.exports]

theorem unnamedChunk (h : Alike s s') : s.unnamedChunk = s'.unnamedChunk := by
  funext settings c
  simp only [ChunkGraph.unnamedChunk, digestOf, h.graph.keyOf]

end Alike

/-! ## Names -/

section

variable {s s' : ChunkGraph} {settings : Compile.Settings}

/-- The names of the chunks, in the order they are given out. -/
def chunkNames (s : ChunkGraph) (settings : Compile.Settings) : List String :=
  nameAll [] ((s.order.filterMap (s.chunks[·]?)).map (s.unnamedChunk settings))

/-- The names that are used when the assets are named. -/
def taken (s : ChunkGraph) (settings : Compile.Settings) : List String :=
  (s.chunkNames settings).reverse

theorem fileNames_chunks :
    (s.fileNames settings).chunks = s.order.zip (s.chunkNames settings) := by
  rw [fileNames, nameAll_append, chunkNames]
  refine congrArg _ (List.take_left' ?_)
  simp

/-- The names of the assets, in the order they are given out. -/
def assetNames (s : ChunkGraph) (settings : Compile.Settings) : List String :=
  nameAll (s.taken settings) ((assets s.graph).map (unnamedAsset settings))

theorem fileNames_assets : (s.fileNames settings).assets =
    ((assets s.graph).map (·.1)).zip (s.assetNames settings) := by
  rw [fileNames, nameAll_append, List.append_nil, assetNames, taken, chunkNames]
  refine congrArg _ (List.drop_left' ?_)
  simp

theorem Alike.chunkNames (h : Alike s s') : s.chunkNames settings = s'.chunkNames settings := by
  rw [ChunkGraph.chunkNames, ChunkGraph.chunkNames, h.order_eq, h.chunks, h.unnamedChunk]

theorem Alike.taken (h : Alike s s') : s.taken settings = s'.taken settings := by
  rw [ChunkGraph.taken, ChunkGraph.taken, h.chunkNames]

end

/-! ## Rendering -/

namespace Rendering

variable {r r' : Rendering} {modules modules' : List Bundled} {m m' : Bundled}

theorem map_eq_of_plain {α : Type} {f : Bundled → α} (hf : ∀ m, f m.plain = f m)
    (h : modules.map Bundled.plain = modules'.map Bundled.plain) :
    modules.map f = modules'.map f := by
  have hplain : ∀ modules : List Bundled, modules.map f = (modules.map Bundled.plain).map f := by
    intro modules
    rw [List.map_map]
    exact List.map_congr_left fun m _ => (hf m).symm
  rw [hplain, hplain modules', h]

theorem moduleRecord_plain {number : ℕ} :
    r.moduleRecord number m.plain = r.moduleRecord number m := by
  cases m with
  | mk id key name type kind isEntry body imports localExports hasSideEffects =>
    cases body <;> rfl

/-- Renderings have the same names for those of some modules that are
assets. -/
def SameAssets (r r' : Rendering) (modules : List Bundled) : Prop :=
  ∀ m ∈ modules, (asset? m).isSome → r.names.ofAsset m.id = r'.names.ofAsset m.id

/-- **Renderings of programs that are the same but for the order of their
modules**, with the same names for chunks. -/
structure Alike (r r' : Rendering) : Prop where
  split : ChunkGraph.Alike r.split r'.split
  chunkNames : r.names.chunks = r'.names.chunks
  current : r.current = r'.current

namespace Alike

theorem ofChunk (h : Alike r r') : r.names.ofChunk = r'.names.ofChunk := by
  funext number
  rw [FileNames.ofChunk, FileNames.ofChunk, h.chunkNames]

theorem pathTo (h : Alike r r') : r.pathTo = r'.pathTo := by
  funext number target
  rw [Rendering.pathTo, Rendering.pathTo, h.current, h.ofChunk]

theorem importedBindings (h : Alike r r')
    (hmodules : modules.map Bundled.plain = modules'.map Bundled.plain) :
    r.importedBindings modules = r'.importedBindings modules' := by
  have hids : ∀ (r : Rendering) (modules : List Bundled), r.importedBindings modules =
      (modules.map (·.id)).foldl (fun all id =>
        (r.split.graph.externalBindings id).entries.foldl (fun all e =>
          all.modify e.1 .empty fun known => known.insertMany e.2.toList) all) .empty := by
    intro r modules
    rw [Rendering.importedBindings, List.foldl_map]
  rw [hids, hids r', map_eq_of_plain (fun _ => rfl) hmodules, h.split.graph.externalBindings]

theorem laterExternals (h : Alike r r')
    (hmodules : modules.map Bundled.plain = modules'.map Bundled.plain) :
    r.laterExternals modules = r'.laterExternals modules' := by
  have hids : ∀ (r : Rendering) (modules : List Bundled), r.laterExternals modules =
      (modules.map (·.id)).flatMap fun id => ((r.split.graph.requests id).filter fun request =>
        request.1.kind = .dynamicImport && r.split.graph.isExternal request.2).map (·.2) := by
    intro r modules
    rw [Rendering.laterExternals, List.flatMap_map]
  rw [hids, hids r', map_eq_of_plain (fun _ => rfl) hmodules, h.split.graph.requests,
    h.split.graph.isExternal]

theorem moduleRecord (h : Alike r r') (number : ℕ) (m : Bundled)
    (hasset : (asset? m).isSome → r.names.ofAsset m.id = r'.names.ofAsset m.id) :
    r.moduleRecord number m = r'.moduleRecord number m := by
  rw [Rendering.moduleRecord, Rendering.moduleRecord, h.pathTo]
  cases hbody : m.body with
  | script code => rfl
  | asset content => rw [hasset (by simp [asset?, hbody])]

/-- The registry of a chunk names its assets. -/
theorem registry (h : Alike r r') (hassets : SameAssets r r' modules)
    (hmodules : modules.map Bundled.plain = modules'.map Bundled.plain) (number : ℕ)
    (links : Links) : r.registry number links modules = r'.registry number links modules' := by
  have hrecords : (modules.map fun m => (m.key, r.moduleRecord number m)) =
      modules.map fun m => (m.key, r'.moduleRecord number m) :=
    List.map_congr_left fun m hm => congrArg (m.key, ·) (h.moduleRecord number m (hassets m hm))
  have hmembers : (modules.map fun m => (m.key, r'.moduleRecord number m)) =
      modules'.map fun m => (m.key, r'.moduleRecord number m) :=
    map_eq_of_plain (fun m => Prod.ext rfl moduleRecord_plain) hmodules
  unfold Rendering.registry
  rw [hrecords, hmembers]

/-- The modules that a chunk stands for agree. -/
theorem entry_cases (h : Alike r r') (c : Chunk) :
    (c.entry?.bind r.split.graph.bundled? = none ∧ c.entry?.bind r'.split.graph.bundled? = none) ∨
      ∃ m m', c.entry?.bind r.split.graph.bundled? = some m ∧
        c.entry?.bind r'.split.graph.bundled? = some m' ∧ m.id = m'.id ∧ m.key = m'.key := by
  cases c.entry? with
  | none => exact Or.inl ⟨rfl, rfl⟩
  | some id =>
    have hmap := h.split.graph.map_bundled (f := fun m => (m.id, m.key)) (fun _ => rfl) id
    rw [Option.bind_some, Option.bind_some]
    cases hm : r.split.graph.bundled? id <;> cases hm' : r'.split.graph.bundled? id <;>
      simp_all

/-- **Chunks agree but for their code**, -/
theorem chunk_blank (h : Alike r r') (number : ℕ) (c : Chunk) :
    { r.chunk number c with code := "" } = { r'.chunk number c with code := "" } := by
  have hmodules := h.split.graph.map_modules (f := Bundled.plain) (fun _ => rfl) c.modules
  simp only [Rendering.chunk, h.split.linksOf, h.ofChunk, h.importedBindings hmodules,
    h.laterExternals hmodules, map_eq_of_plain (f := Bundled.id) (fun _ => rfl) hmodules,
    h.split.graph.isDynamicTarget, h.split.exportsOf]
  rcases h.entry_cases c with ⟨hm, hm'⟩ | ⟨m, m', hm, hm', hid, -⟩
  · rw [hm, hm']
  · rw [hm, hm']
    cases c.isUserDefined <;>
      simp only [Option.any_some, Option.map_some, Option.map_none, hid, if_true, if_false,
        Bool.false_eq_true]

/-- and where the names of their assets agree, in their code too. -/
theorem code_chunk (h : Alike r r') (number : ℕ) (c : Chunk)
    (hassets : SameAssets r r' (c.modules.filterMap r.split.graph.bundled?)) :
    (r.chunk number c).code = (r'.chunk number c).code := by
  have hmodules := h.split.graph.map_modules (f := Bundled.plain) (fun _ => rfl) c.modules
  have hregistryLines : r.registryLines = r'.registryLines := by
    funext number links
    unfold registryLines
    rw [h.pathTo, h.ofChunk]
  have hdynamicTable : r.dynamicTable = r'.dynamicTable := by
    funext number links
    unfold dynamicTable
    rw [h.pathTo, h.ofChunk, h.split.graph.keyOf]
  have hsharedExports : r.sharedExports = r'.sharedExports := by
    funext c isDynamic
    rw [sharedExports, sharedExports, h.split.inlined]
  have hentryLines : ∀ m m' : Bundled, m.key = m'.key → entryLines m = entryLines m' := by
    intro m m' hkey
    funext e
    unfold entryLines
    simp only [hkey]
  -- every part of the code is made of what agrees
  unfold Rendering.chunk
  dsimp only
  rw [h.split.linksOf, h.registry hassets hmodules, hregistryLines, hdynamicTable,
    hsharedExports, h.split.graph.isDynamicTarget, h.split.exportsOf]
  rcases h.entry_cases c with ⟨hm, hm'⟩ | ⟨m, m', hm, hm', hid, hkey⟩
  · rw [hm, hm']
  · rw [hm, hm']
    cases c.isUserDefined <;>
      simp only [Option.any_some, Option.map_some, Option.map_none, hid, hentryLines m m' hkey,
        if_true, if_false, Bool.false_eq_true]

theorem chunk_eq (h : Alike r r') (number : ℕ) (c : Chunk)
    (hassets : SameAssets r r' (c.modules.filterMap r.split.graph.bundled?)) :
    r.chunk number c = r'.chunk number c := by
  have hblank := h.chunk_blank number c
  have hcode := h.code_chunk number c hassets
  generalize r.chunk number c = d at hblank hcode
  generalize r'.chunk number c = d' at hblank hcode
  cases d
  cases d'
  simp_all

end Alike

end Rendering

end DepBundle.ChunkGraph
