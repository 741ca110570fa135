import DepBundle.Proofs.Chunk.Split
/-!
# Chunks — the partition

The chunks of a program part it by what its entries reach: every part of
the output that some entry reaches is in one chunk, and that chunk stands
for exactly the entries that reach it (`split_partsByReach`).
-/

namespace DepBundle.ChunkGraph

open DepBundle.Graph

variable {g : Graph} {inlined : Bool}

/-- **What it is for chunks to part a program by what its entries reach.**
The entries are those that have chunks, by their numbers. -/
structure PartsByReach (g : Graph) (inlined : Bool) (s : ChunkGraph) : Prop where
  /-- What some entry reaches is in one chunk, once. `chunkOf?` names the
  chunk, and its bits are the entries that reach the module. -/
  placed : ∀ id, (∃ e ∈ chunkEntries g inlined, g.Reaches inlined e.id id) →
    ∃ n c, s.chunkOf? id = some n ∧ s.chunks[n]? = some c ∧ c.modules.count id = 1 ∧
      (∀ n' c', s.chunks[n']? = some c' → id ∈ c'.modules → n' = n) ∧
      ∀ b, c.bits.contains b ↔
        ∃ e, (chunkEntries g inlined)[b]? = some e ∧ g.Reaches inlined e.id id
  /-- No two chunks have the same bits. -/
  distinct : s.chunks.Pairwise fun c c' => c.bits ≠ c'.bits
  /-- What is left to the host, and what no entry reaches, is in no chunk. -/
  reached : ∀ c ∈ s.chunks, ∀ id ∈ c.modules,
    g.isExternal id = false ∧ ∃ e ∈ chunkEntries g inlined, g.Reaches inlined e.id id
  /-- The modules of a chunk run one after another as they stand in it. -/
  ordered : ∀ c ∈ s.chunks, ∃ times : List ℕ, c.modules.map s.linked.position? = times.map some ∧
    times.Pairwise (· < ·)
  /-- The chunks are given out each once. -/
  perm : s.order.Perm (List.range s.chunks.length)
  /-- Entries asked for come first, then those made by `import()`, then
  common chunks. -/
  ranked : (s.order.filterMap (s.chunks[·]?)).Pairwise fun c c' => c.rank ≤ c'.rank

/-! ## Within a chunk -/

/-- The modules of a chunk stand in it as they stand in the order. -/
theorem modules_sublist {c : Chunk} (hc : c ∈ (split g.link inlined).chunks) :
    c.modules.Sublist g.runOrder := by
  rw [(placed_split g inlined).modules c hc]
  exact List.filter_sublist.trans List.filter_sublist

theorem nodup_modules {c : Chunk} (hc : c ∈ (split g.link inlined).chunks) : c.modules.Nodup :=
  nodup_runOrder.sublist (modules_sublist hc)

/-- **The modules of a chunk run one after another.** -/
theorem exists_times {c : Chunk} (hc : c ∈ (split g.link inlined).chunks) :
    ∃ times : List ℕ, c.modules.map g.link.position? = times.map some ∧
      times.Pairwise (· < ·) :=
  exists_times_of_sublist (modules_sublist hc)

/-! ## The order of the chunks -/

/-- Whether a chunk is given out no later than another. -/
def before (s : ChunkGraph) (a b : Chunk × ℕ) : Bool :=
  a.1.rank < b.1.rank || (a.1.rank = b.1.rank && s.start a.1 ≤ s.start b.1)

theorem before_trans (s : ChunkGraph) (a b c : Chunk × ℕ) (hab : s.before a b)
    (hbc : s.before b c) : s.before a c := by
  simp only [before, Bool.or_eq_true, Bool.and_eq_true, decide_eq_true_iff] at *
  omega

theorem before_total (s : ChunkGraph) (a b : Chunk × ℕ) : s.before a b || s.before b a := by
  simp only [before, Bool.or_eq_true, Bool.and_eq_true, decide_eq_true_iff]
  omega

theorem order_eq (s : ChunkGraph) :
    s.order = (s.chunks.zipIdx.mergeSort s.before).map (·.2) := rfl

/-- **Each chunk is given out once.** -/
theorem order_perm (s : ChunkGraph) : s.order.Perm (List.range s.chunks.length) := by
  rw [order_eq, List.range_eq_range', ← List.zipIdx_map_snd]
  exact (List.mergeSort_perm _ _).map _

theorem filterMap_order (s : ChunkGraph) :
    s.order.filterMap (s.chunks[·]?) = (s.chunks.zipIdx.mergeSort s.before).map (·.1) := by
  rw [order_eq, List.filterMap_map, ← List.filterMap_eq_map]
  refine List.filterMap_congr fun p hp => ?_
  exact List.mem_zipIdx_iff_getElem?.1 (List.mem_mergeSort.1 hp)

/-- **Chunks are given out by rank.** -/
theorem order_ranked (s : ChunkGraph) :
    (s.order.filterMap (s.chunks[·]?)).Pairwise fun c c' => c.rank ≤ c'.rank := by
  rw [filterMap_order, List.pairwise_map]
  refine (List.pairwise_mergeSort s.before_trans s.before_total _).imp fun {a b} h => ?_
  simp only [before, Bool.or_eq_true, Bool.and_eq_true, decide_eq_true_iff] at h
  omega

/-! ## The partition -/

/-- A chunk's modules are what its entries reach. -/
theorem bits_eq_of_mem {c : Chunk} (hc : c ∈ (split g.link inlined).chunks) {id : String}
    (hid : id ∈ c.modules) : entryBits g inlined id = c.bits :=
  ((mem_modules_iff hc).1 hid).2

theorem exists_reaches_of_mem {c : Chunk} (hc : c ∈ (split g.link inlined).chunks) {id : String}
    (hid : id ∈ c.modules) : ∃ e ∈ chunkEntries g inlined, g.Reaches inlined e.id id := by
  rw [← isEmpty_entryBits_iff, bits_eq_of_mem hc hid]
  exact (placed_split g inlined).nonempty c hc

theorem mem_entries_of_mem_chunkEntries {e : Graph.Entry} (h : e ∈ chunkEntries g inlined) :
    e ∈ g.entries :=
  (List.mem_filter.1 h).1

/-- **What an entry reaches has a chunk.** -/
theorem exists_chunk_of_reaches (hlater : g.EntersLater) {id : String}
    (h : ∃ e ∈ chunkEntries g inlined, g.Reaches inlined e.id id) :
    ∃ (n : ℕ) (c : Chunk), (split g.link inlined).chunks[n]? = some c ∧ id ∈ c.modules := by
  have hempty := isEmpty_entryBits_iff.2 h
  obtain ⟨e, he, hid⟩ := h
  have hsorted : id ∈ g.link.sorted :=
    mem_sorted_of_reaches hlater ⟨e, mem_entries_of_mem_chunkEntries he, rfl⟩ hid
  obtain ⟨c, hc, hbits⟩ := (placed_split g inlined).covers id hsorted hempty
  obtain ⟨n, hn⟩ := List.getElem?_of_mem hc
  exact ⟨n, c, hn, (mem_modules_iff hc).2 ⟨hsorted, hbits.symm⟩⟩

/-- **Splitting parts a program by what its entries reach.** -/
theorem split_partsByReach (g : Graph) (inlined : Bool) (hlater : g.EntersLater) :
    PartsByReach g inlined (split g.link inlined) where
  placed id h := by
    obtain ⟨n, c, hn, hid⟩ := exists_chunk_of_reaches hlater h
    have hc := List.mem_of_getElem? hn
    refine ⟨n, c, chunkOf?_eq_some_iff.2 ⟨c, hn, hid⟩, hn, ?_, ?_, ?_⟩
    · exact List.count_eq_one_of_mem (nodup_modules hc) hid
    · intro n' c' hn' hid'
      refine eq_of_bits_eq hn' hn ?_
      rw [← bits_eq_of_mem (List.mem_of_getElem? hn') hid', bits_eq_of_mem hc hid]
    · intro b
      rw [← bits_eq_of_mem hc hid, contains_entryBits]
  distinct := (placed_split g inlined).distinct
  reached c hc id hid := by
    refine ⟨isExternal_of_bundled ?_, exists_reaches_of_mem hc hid⟩
    exact (mem_sorted_iff.1 ((mem_modules_iff hc).1 hid).1).2
  ordered c hc := exists_times hc
  perm := order_perm _
  ranked := order_ranked _

/-- A module of a small program, given by what it asks for. -/
def sketch (id key : String) (targets : List (Module.ImportKind × String)) : String × Vertex :=
  (id, .bundled
    { id, key, name := id, type := .js, kind := .declared, isEntry := false
      body := .script "", localExports := .empty, hasSideEffects := true
      imports := targets.map fun (kind, target) =>
        ⟨{ specifier := target, kind, form := .expression }, some target⟩ })

/-- Two pages that share a module. It leads back to the first of them, and
the first may load a module later that wants the shared one again. -/
def twoPages : Graph where
  vertices := .ofList [
    sketch "/a.js" "a.js" [(.statement, "/shared.js"), (.dynamicImport, "/late.js")],
    sketch "/b.js" "b.js" [(.statement, "/shared.js"), (.requireCall, "react")],
    sketch "/shared.js" "shared.js" [(.statement, "/a.js")],
    sketch "/late.js" "late.js" [(.statement, "/shared.js")],
    ("react", .external)]
  entries := [⟨"/a.js", none, true⟩, ⟨"/b.js", none, true⟩, ⟨"/a.js", some "again", true⟩,
    ⟨"/late.js", none, false⟩]

theorem twoPages_partsByReach : twoPages.EntersLater ∧
    PartsByReach twoPages false (split twoPages.link false) ∧
    PartsByReach twoPages true (split twoPages.link true) :=
  have hlater : twoPages.EntersLater := by decide
  ⟨hlater, split_partsByReach twoPages false hlater, split_partsByReach twoPages true hlater⟩

end DepBundle.ChunkGraph
