import DepBundle.Proofs.Chunk.Partition
import DepBundle.Proofs.Chunk.Renumbering
import DepBundle.Proofs.Chunk.Single
import DepBundle.Proofs.Graph.Program
/-!
# Chunks — the files of entries

Each entry that was asked for has a file of its own: the files that say they
are an entry's are one for each entry asked for, in some order, and no two
have one file name where names are given by the names of the entries
(`Rendering.entryFiles`).
-/

namespace DepBundle.ChunkGraph

open DepBundle.Graph

variable {s : ChunkGraph} {settings : Compile.Settings} {c c' : Chunk} {n n' : ℕ}

/-! ## Their names -/

theorem nodup_order (s : ChunkGraph) : s.order.Nodup :=
  (order_perm s).nodup_iff.2 List.nodup_range

/-- A chunk is given out somewhere. -/
theorem exists_getElem?_order (hc : s.chunks[n]? = some c) : ∃ i : ℕ, s.order[i]? = some n := by
  refine List.getElem?_of_mem ?_
  rw [(order_perm s).mem_iff, List.mem_range]
  exact (List.getElem?_eq_some_iff.1 hc).1

theorem getElem?_given {i : ℕ} (hi : s.order[i]? = some n) (hc : s.chunks[n]? = some c) :
    (s.order.filterMap (s.chunks[·]?))[i]? = some c := by
  rw [order_eq, List.getElem?_map, Option.map_eq_some_iff] at hi
  obtain ⟨⟨c₀, n₀⟩, hp, rfl⟩ := hi
  have hmem := List.mem_mergeSort.1 (List.mem_of_getElem? hp)
  obtain rfl := Option.some.inj (hc.symm.trans (List.mem_zipIdx_iff_getElem?.1 hmem))
  rw [filterMap_order, List.getElem?_map, hp]
  rfl

/-- The name of a chunk is the one given out in its place. -/
theorem getElem?_chunkNames (settings : Compile.Settings) {i : ℕ} (hi : s.order[i]? = some n) :
    (s.chunkNames settings)[i]? = some ((s.fileNames settings).ofChunk n) := by
  have hlength : (s.chunkNames settings).length = s.order.length := by
    rw [chunkNames, length_nameAll, List.length_map, filterMap_order, order_eq, List.length_map,
      List.length_map]
  obtain ⟨name, hname⟩ : ∃ name, (s.chunkNames settings)[i]? = some name := by
    refine ⟨_, List.getElem?_eq_getElem ?_⟩
    rw [hlength]
    exact (List.getElem?_eq_some_iff.1 hi).1
  have hnodup : ((s.order.zip (s.chunkNames settings)).map Prod.fst).Nodup := by
    rw [List.map_fst_zip hlength.ge]
    exact nodup_order s
  have hmem : (n, name) ∈ s.order.zip (s.chunkNames settings) := by
    refine List.mem_of_getElem? (i := i) ?_
    rw [List.getElem?_zip_eq_some]
    exact ⟨hi, hname⟩
  rw [FileNames.ofChunk, fileNames_chunks, OrderedMap.list_lookup_eq,
    (OrderedMap.lookup_eq_some_iff hnodup).2 hmem, hname]
  rfl

/-- **Entries that were asked for have different file names.** -/
theorem ofChunk_inj (htemplate : settings.entryFileNames = "[name].js")
    (hc : s.chunks[n]? = some c) (hc' : s.chunks[n']? = some c') (huser : c.isUserDefined)
    (huser' : c'.isUserDefined)
    (h : (s.fileNames settings).ofChunk n = (s.fileNames settings).ofChunk n') : n = n' := by
  obtain ⟨i, hi⟩ := exists_getElem?_order hc
  obtain ⟨j, hj⟩ := exists_getElem?_order hc'
  have hname := getElem?_chunkNames settings hi
  have hname' := getElem?_chunkNames settings hj
  have hcounts : ∀ c : Chunk, c.isUserDefined → (s.unnamedChunk settings c).Counts := by
    intro c huser
    refine counts_of_hasWord ?_
    rw [unnamedChunk, if_pos huser, htemplate]
    show Text.hasWord "[name]".toList "[name].js".toList
    decide
  rw [h] at hname
  -- of two files with one name, the later would have a name that was used
  rcases Nat.lt_trichotomy i j with hij | rfl | hij
  · refine absurd hname' (getElem?_nameAll_ne hij ?_ (hcounts c' huser') hname)
    rw [List.getElem?_map, getElem?_given hj hc']
    rfl
  · exact Option.some.inj (hi.symm.trans hj)
  · refine absurd hname (getElem?_nameAll_ne hij ?_ (hcounts c huser) hname')
    rw [List.getElem?_map, getElem?_given hi hc]
    rfl

/-! ## Their chunks -/

/-- **The entries of a program:** those asked for, all of which are there, and
then others. -/
structure AskedFirst (g : Graph) (asked : List Graph.Entry) : Prop where
  entries : ∃ later : List Graph.Entry,
    g.entries = asked ++ later ∧ ∀ e ∈ later, e.isUserDefined = false
  isUserDefined : ∀ e ∈ asked, e.isUserDefined
  bundled : ∀ e ∈ asked, (g.bundled? e.id).isSome

namespace AskedFirst

variable {g : Graph} {asked : List Graph.Entry} {k : ℕ} {e : Graph.Entry}

/-- An entry that was asked for has the chunk with its number. -/
theorem exists_chunk (h : AskedFirst g asked) (he : asked[k]? = some e) :
    ∃ c, (split g.link false).chunks[k]? = some c ∧ c.kind = .entry e.id true ∧
      c.name = e.name := by
  obtain ⟨later, hentries, -⟩ := h.entries
  have hat : (chunkEntries g false)[k]? = some e := by
    rw [chunkEntries, hentries, List.filter_eq_self.2 (by simp),
      List.getElem?_append_left (List.getElem?_eq_some_iff.1 he).1, he]
  obtain ⟨c, hc, hblank⟩ := exists_chunk_of_entry hat
  refine ⟨c, hc, ?_, congrArg Chunk.name hblank⟩
  rw [← h.isUserDefined e (List.mem_of_getElem? he)]
  exact congrArg Chunk.kind hblank

/-- Only entries that were asked for have chunks that say so. -/
theorem lt_length (h : AskedFirst g asked) (hc : (split g.link false).chunks[k]? = some c)
    (huser : c.isUserDefined) : k < asked.length := by
  obtain ⟨later, hentries, hlater⟩ := h.entries
  have hkind : c.kind ≠ .common := by
    intro hkind
    rw [Chunk.isUserDefined, hkind] at huser
    cases huser
  obtain ⟨e, he, hblank⟩ := exists_entry_of_chunk hc hkind
  have hentry : e.isUserDefined = c.isUserDefined := (congrArg Chunk.isUserDefined hblank).symm
  by_contra hge
  rw [chunkEntries, hentries, List.filter_eq_self.2 (by simp),
    List.getElem?_append_right (Nat.le_of_not_lt hge)] at he
  rw [hlater e (List.mem_of_getElem? he), huser] at hentry
  cases hentry

end AskedFirst

theorem askedFirst_of_program {around : Surroundings} {named : List (Option String × Resolved)}
    {g : Graph} (h : Program around named g) : AskedFirst g (entriesOf named) := by
  obtain ⟨later, hentries⟩ := h.entries
  refine ⟨⟨_, hentries, fun e he => ?_⟩, fun e he => ?_, h.entry⟩
  · obtain ⟨id, -, rfl⟩ := List.mem_map.1 he
    rfl
  · obtain ⟨p, -, rfl⟩ := List.mem_map.1 he
    rfl

/-! ## Their files -/

/-- The files of code that are entries' are those of the entries asked for:
`out k` is that of the entry in place `k`. -/
structure EntryFiles (asked : List Graph.Entry) (files : List Output.Chunk)
    (out : ℕ → Output.Chunk) : Prop where
  mem_iff : ∀ c, c ∈ files ∧ c.isEntry ↔ ∃ k < asked.length, out k = c
  /-- It stands for the module of the entry, -/
  entryModule : ∀ (k : ℕ) e, asked[k]? = some e → (out k).entryModule = some e.id
  /-- and has the name of the entry. -/
  name : ∀ (k : ℕ) e name, asked[k]? = some e → e.name = some name → (out k).name = name
  /-- No two have one file name, -/
  inj : ∀ k < asked.length, ∀ k' < asked.length,
    (out k).fileName = (out k').fileName → k = k'
  /-- and no file name stands twice among them. -/
  nodup : ((files.filter (·.isEntry)).map (·.fileName)).Nodup

namespace Rendering

variable {r : Rendering} {g : Graph} {asked : List Graph.Entry} {out : Output.Chunk}

theorem mem_chunks_files : out ∈ Output.chunks r.files ↔
    ∃ (n : ℕ) (c : Chunk), r.split.chunks[n]? = some c ∧ r.chunk n c = out := by
  rw [chunks_files, List.mem_filterMap]
  constructor
  · rintro ⟨n, -, hout⟩
    obtain ⟨c, hc, hout⟩ := Option.map_eq_some_iff.1 hout
    exact ⟨n, c, hc, hout⟩
  · rintro ⟨n, c, hc, rfl⟩
    refine ⟨n, ?_, by rw [hc, Option.map_some]⟩
    obtain ⟨i, hi⟩ := exists_getElem?_order hc
    exact List.mem_of_getElem? hi

/-- The output of the chunk with a number, if there is one. -/
def outOf (r : Rendering) (k : ℕ) : Output.Chunk := ((r.split.chunks[k]?).map (r.chunk k)).getD {}

theorem outOf_eq (hc : r.split.chunks[n]? = some c) : r.outOf n = r.chunk n c := by
  rw [outOf, hc]
  rfl

/-- **The entries asked for have a file each,** and all other files are no
entry's. -/
theorem entryFiles (hsplit : r.split = ChunkGraph.split g.link false)
    (hnames : r.names = r.split.fileNames settings)
    (htemplate : settings.entryFileNames = "[name].js") (hkeyed : g.Keyed)
    (hasked : AskedFirst g asked) : EntryFiles asked (Output.chunks r.files) r.outOf := by
  have hchunk : ∀ k < asked.length, ∃ e c, asked[k]? = some e ∧ r.split.chunks[k]? = some c ∧
      c.kind = .entry e.id true ∧ c.name = e.name := by
    intro k hk
    obtain ⟨c, hc, hkind, hname⟩ := hasked.exists_chunk (List.getElem?_eq_getElem hk)
    exact ⟨_, c, List.getElem?_eq_getElem hk, hsplit ▸ hc, hkind, hname⟩
  have huser : ∀ {c : Chunk} {id : String}, c.kind = .entry id true → c.isUserDefined := by
    intro c id hkind
    rw [Chunk.isUserDefined, hkind]
  -- names tell apart the chunks that are asked for, so chunks and files are paired off
  have hinj : ∀ {k k' : ℕ} {c c' : Chunk}, r.split.chunks[k]? = some c →
      r.split.chunks[k']? = some c' → c.isUserDefined → c'.isUserDefined →
      r.names.ofChunk k = r.names.ofChunk k' → k = k' := by
    intro k k' c c' hc hc' hu hu' h
    rw [hnames] at h
    exact ofChunk_inj htemplate hc hc' hu hu' h
  have hgraph : r.split.graph = g := by
    rw [hsplit]
    rfl
  refine ⟨fun c => ⟨?_, ?_⟩, fun k e he => ?_, fun k e name he hname => ?_, ?_, ?_⟩
  · rintro ⟨hmem, hentry⟩
    obtain ⟨n, c, hc, rfl⟩ := mem_chunks_files.1 hmem
    exact ⟨n, hasked.lt_length (hsplit ▸ hc) hentry, outOf_eq hc⟩
  · rintro ⟨k, hk, rfl⟩
    obtain ⟨e, c, -, hc, hkind, -⟩ := hchunk k hk
    rw [outOf_eq hc]
    exact ⟨mem_chunks_files.2 ⟨k, c, hc, rfl⟩, huser hkind⟩
  · obtain ⟨c, hc, hkind, -⟩ := hasked.exists_chunk he
    obtain ⟨m, hm⟩ := Option.isSome_iff_exists.1 (hasked.bundled e (List.mem_of_getElem? he))
    rw [outOf_eq (hsplit ▸ hc), chunk, Chunk.entry?, hkind]
    simp [hgraph, hm, hkeyed e.id m hm]
  · obtain ⟨c, hc, -, hgiven⟩ := hasked.exists_chunk he
    rw [outOf_eq (hsplit ▸ hc)]
    simp [chunk, nameOf, hgiven, hname]
  · intro k hk k' hk' h
    obtain ⟨e, c, -, hc, hkind, -⟩ := hchunk k hk
    obtain ⟨e', c', -, hc', hkind', -⟩ := hchunk k' hk'
    rw [outOf_eq hc, outOf_eq hc'] at h
    exact hinj hc hc' (huser hkind) (huser hkind') h
  · rw [List.Nodup, List.pairwise_map, List.pairwise_filter, chunks_files, List.pairwise_filterMap]
    refine (nodup_order r.split).imp fun {n n'} hne out hout out' hout' hentry hentry' h => hne ?_
    obtain ⟨c, hc, rfl⟩ := Option.map_eq_some_iff.1 hout
    obtain ⟨c', hc', rfl⟩ := Option.map_eq_some_iff.1 hout'
    exact hinj hc hc' hentry hentry' h

end Rendering

end DepBundle.ChunkGraph
