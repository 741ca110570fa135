import DepBundle.Proofs.Chunk.EntryBits
import DepBundle.Proofs.Graph.Reach
/-!
# Chunks — a program parted by what its entries reach

Splitting walks the program once from each entry and then places the
modules in the order they run. `Placed` says what a list of chunks is after
some of them: one chunk for each set of entries, holding the modules that
set reaches, in order. Each placement keeps it (`Placed.place`), so the
split of a program has it for all its modules (`placed_split`).
-/

namespace DepBundle.ChunkGraph

open DepBundle.Graph

variable {g : Graph} {inlined : Bool}

/-! ## The entries that reach a module -/

/-- The set of the entries that reach a module, as a list put together. -/
theorem bitsOf_eq (reaches : List (List String)) (id : String) :
    bitsOf reaches id =
      ((reaches.zipIdx.filter fun p => p.1.contains id).map (·.2)).foldl EntryBits.insert
        (.ofSize reaches.length) := by
  rw [List.foldl_map, List.foldl_filter]
  rfl

theorem size_bitsOf {reaches : List (List String)} {id : String} :
    (bitsOf reaches id).bytes.size = (reaches.length + 7) / 8 := by
  rw [bitsOf_eq, EntryBits.size_foldl_insert, EntryBits.size_ofSize]

theorem contains_bitsOf {reaches : List (List String)} {id : String} {b : ℕ} :
    (bitsOf reaches id).contains b ↔ ∃ ids, reaches[b]? = some ids ∧ id ∈ ids := by
  have hmem : ∀ n, n ∈ (reaches.zipIdx.filter fun p => p.1.contains id).map (·.2) ↔
      ∃ ids, reaches[n]? = some ids ∧ id ∈ ids := by
    intro n
    simp only [List.mem_map, List.mem_filter, List.contains_iff_mem, Prod.exists, exists_eq_right,
      List.mem_zipIdx_iff_getElem?]
  rw [bitsOf_eq, EntryBits.contains_foldl_insert, EntryBits.contains_ofSize, hmem]
  · simp
  · intro n hn
    obtain ⟨ids, hids, -⟩ := (hmem n).1 hn
    exact EntryBits.room (List.getElem?_eq_some_iff.1 hids).1

/-- The entries that reach a module, as a program is split. -/
def entryBits (g : Graph) (inlined : Bool) (id : String) : EntryBits :=
  bitsOf ((chunkEntries g inlined).map (reached g inlined)) id

theorem size_entryBits {id : String} :
    (entryBits g inlined id).bytes.size = ((chunkEntries g inlined).length + 7) / 8 := by
  rw [entryBits, size_bitsOf, List.length_map]

/-- **The bits of a module are the entries that reach it.** -/
theorem contains_entryBits {id : String} {b : ℕ} :
    (entryBits g inlined id).contains b ↔
      ∃ e, (chunkEntries g inlined)[b]? = some e ∧ g.Reaches inlined e.id id := by
  rw [entryBits, contains_bitsOf]
  simp only [List.getElem?_map, Option.map_eq_some_iff]
  constructor
  · rintro ⟨_, ⟨e, he, rfl⟩, hid⟩
    exact ⟨e, he, mem_reached_iff.1 hid⟩
  · rintro ⟨e, he, hid⟩
    exact ⟨_, ⟨e, he, rfl⟩, mem_reached_iff.2 hid⟩

theorem isEmpty_entryBits_iff {id : String} :
    (entryBits g inlined id).isEmpty = false ↔
      ∃ e ∈ chunkEntries g inlined, g.Reaches inlined e.id id := by
  rw [← Bool.not_eq_true, EntryBits.isEmpty_iff, not_forall]
  simp only [Bool.not_eq_false, contains_entryBits]
  constructor
  · rintro ⟨b, e, he, hid⟩
    exact ⟨e, List.mem_of_getElem? he, hid⟩
  · rintro ⟨e, he, hid⟩
    obtain ⟨b, hb⟩ := List.getElem?_of_mem he
    exact ⟨b, e, hb, hid⟩

/-! ## Placing modules -/

/-- A chunk before anything is placed in it. -/
def blank (c : Chunk) : Chunk := { c with modules := [] }

/-- **What a list of chunks is after some modules.** `bits` is the set each
module goes by, and `start` are the chunks there were before the first. -/
structure Placed (bits : String → EntryBits) (start : List Chunk) (done : List String)
    (cs : List Chunk) : Prop where
  /-- No two chunks stand for the same set. -/
  distinct : cs.Pairwise fun c c' => c.bits ≠ c'.bits
  /-- No chunk stands for the empty set. -/
  nonempty : ∀ c ∈ cs, c.bits.isEmpty = false
  /-- A chunk has the modules of its set, in order. -/
  modules : ∀ c ∈ cs, c.modules = done.filter fun id => bits id = c.bits
  /-- A module that something reaches has a chunk. -/
  covers : ∀ id ∈ done, (bits id).isEmpty = false → ∃ c ∈ cs, c.bits = bits id
  /-- The chunks there were are still in front, and those after them are
  common chunks. -/
  front : ∃ more, cs.map blank = start ++ more ∧ ∀ c ∈ more, c.kind = .common

/-- A chunk with a module added if it is the chunk of a set. -/
def added (bits : EntryBits) (id : String) (c : Chunk) : Chunk :=
  if c.bits = bits then { c with modules := c.modules ++ [id] } else c

@[simp] theorem bits_added {bits : EntryBits} {id : String} {c : Chunk} :
    (added bits id c).bits = c.bits := by
  unfold added
  split <;> rfl

@[simp] theorem blank_added {bits : EntryBits} {id : String} {c : Chunk} :
    blank (added bits id c) = blank c := by
  unfold added
  split <;> rfl

theorem modules_added {bits : EntryBits} {id : String} {c : Chunk} :
    (added bits id c).modules = c.modules ++ if c.bits = bits then [id] else [] := by
  unfold added
  split <;> simp

theorem place_of_forall_ne {bits : EntryBits} {id : String} {cs : List Chunk}
    (h : ∀ c ∈ cs, c.bits ≠ bits) :
    place bits id cs = cs ++ [{ kind := .common, bits, modules := [id] }] := by
  induction cs with
  | nil => rfl
  | cons c cs ih =>
    rw [place, if_neg (h c (List.mem_cons_self ..)),
      ih fun c' hc' => h c' (List.mem_cons_of_mem _ hc')]
    rfl

theorem map_added_of_forall_ne {bits : EntryBits} {id : String} {cs : List Chunk}
    (h : ∀ c ∈ cs, c.bits ≠ bits) : cs.map (added bits id) = cs := by
  refine (List.map_congr_left fun c hc => ?_).trans (List.map_id cs)
  exact if_neg (h c hc)

/-- Where chunks stand for distinct sets, placing adds to the chunk of the
set and to no other. -/
theorem place_of_exists {bits : EntryBits} {id : String} {cs : List Chunk}
    (hdistinct : cs.Pairwise fun c c' => c.bits ≠ c'.bits) (h : ∃ c ∈ cs, c.bits = bits) :
    place bits id cs = cs.map (added bits id) := by
  induction cs with
  | nil => simp at h
  | cons c cs ih =>
    obtain ⟨hc, hcs⟩ := List.pairwise_cons.1 hdistinct
    rw [place, List.map_cons, added]
    split
    · rename_i heq
      rw [map_added_of_forall_ne fun c' hc' he => hc c' hc' (heq.trans he.symm)]
    · rename_i hne
      obtain ⟨c', hc', he⟩ := h
      rcases List.mem_cons.1 hc' with rfl | hc'
      · exact absurd he hne
      · rw [ih hcs ⟨c', hc', he⟩]

namespace Placed

variable {bits : String → EntryBits} {start cs : List Chunk} {done : List String} {id : String}

/-- A module that nothing reaches is in no chunk. -/
theorem skip (h : Placed bits start done cs) (hid : (bits id).isEmpty) :
    Placed bits start (done ++ [id]) cs where
  distinct := h.distinct
  nonempty := h.nonempty
  modules c hc := by
    have hne : bits id ≠ c.bits := fun he => by simp [he, h.nonempty c hc] at hid
    rw [List.filter_append, ← h.modules c hc]
    simp [hne]
  covers id' hid' hne := by
    rcases List.mem_append.1 hid' with hid' | hid'
    · exact h.covers id' hid' hne
    · rw [List.mem_singleton.1 hid', hid] at hne
      exact absurd hne (by decide)
  front := h.front

/-- A module goes into the chunk of its set. -/
theorem join (h : Placed bits start done cs) (hex : ∃ c ∈ cs, c.bits = bits id) :
    Placed bits start (done ++ [id]) (cs.map (added (bits id) id)) where
  distinct := by
    rw [List.pairwise_map]
    simpa using h.distinct
  nonempty := by simpa using h.nonempty
  modules c' hc' := by
    obtain ⟨c, hc, rfl⟩ := List.mem_map.1 hc'
    rw [modules_added, bits_added, h.modules c hc, List.filter_append]
    congr 1
    by_cases he : bits id = c.bits
    · simp [he]
    · simp [he, Ne.symm he]
  covers id' hid' hne := by
    simp only [List.mem_map, exists_exists_and_eq_and, bits_added]
    rcases List.mem_append.1 hid' with hid' | hid'
    · exact h.covers id' hid' hne
    · rw [List.mem_singleton.1 hid']
      exact hex
  front := by
    obtain ⟨more, hfront, hmore⟩ := h.front
    refine ⟨more, ?_, hmore⟩
    rw [List.map_map]
    simpa [Function.comp_def] using hfront

/-- No module before was of a set that has no chunk. -/
theorem filter_eq_nil (h : Placed bits start done cs) (hid : (bits id).isEmpty = false)
    (hall : ∀ c ∈ cs, c.bits ≠ bits id) : done.filter (fun id' => bits id' = bits id) = [] := by
  rw [List.filter_eq_nil_iff]
  intro id' hid' he
  rw [decide_eq_true_iff] at he
  obtain ⟨c, hc, hc'⟩ := h.covers id' hid' (he ▸ hid)
  exact hall c hc (hc'.trans he)

/-- A module whose set has no chunk gets a new one. -/
theorem append (h : Placed bits start done cs) (hid : (bits id).isEmpty = false)
    (hall : ∀ c ∈ cs, c.bits ≠ bits id) : Placed bits start (done ++ [id])
      (cs ++ [{ kind := .common, bits := bits id, modules := [id] }]) where
  distinct := by
    refine List.pairwise_append.2 ⟨h.distinct, List.pairwise_singleton .., ?_⟩
    intro c hc c' hc'
    rw [List.mem_singleton.1 hc']
    exact hall c hc
  nonempty c hc := by
    rcases List.mem_append.1 hc with hc | hc
    · exact h.nonempty c hc
    · rw [List.mem_singleton.1 hc]
      exact hid
  modules c hc := by
    rw [List.filter_append]
    rcases List.mem_append.1 hc with hc | hc
    · rw [← h.modules c hc]
      simp [Ne.symm (hall c hc)]
    · rw [List.mem_singleton.1 hc]
      simp [h.filter_eq_nil hid hall]
  covers id' hid' hne := by
    rcases List.mem_append.1 hid' with hid' | hid'
    · obtain ⟨c, hc, he⟩ := h.covers id' hid' hne
      exact ⟨c, List.mem_append_left _ hc, he⟩
    · exact ⟨_, List.mem_append_right _ (List.mem_singleton_self _),
        by rw [List.mem_singleton.1 hid']⟩
  front := by
    obtain ⟨more, hfront, hmore⟩ := h.front
    refine ⟨more ++ [{ kind := .common, bits := bits id, modules := [] }], ?_, fun c hc => ?_⟩
    · rw [List.map_append, hfront, List.append_assoc]
      rfl
    · rcases List.mem_append.1 hc with hc | hc
      · exact hmore c hc
      · rw [List.mem_singleton.1 hc]

/-- **Placing a module keeps what the chunks are.** -/
theorem place (h : Placed bits start done cs) (hid : (bits id).isEmpty = false) :
    Placed bits start (done ++ [id]) (ChunkGraph.place (bits id) id cs) := by
  by_cases hex : ∃ c ∈ cs, c.bits = bits id
  · rw [place_of_exists h.distinct hex]
    exact h.join hex
  · have hall : ∀ c ∈ cs, c.bits ≠ bits id := fun c hc he => hex ⟨c, hc, he⟩
    rw [place_of_forall_ne hall]
    exact h.append hid hall

/-- Placing modules one after another, passing over what nothing reaches. -/
theorem foldl (h : Placed bits start done cs) (ids : List String) :
    Placed bits start (done ++ ids) (ids.foldl (fun cs id =>
      if (bits id).isEmpty then cs else ChunkGraph.place (bits id) id cs) cs) := by
  induction ids generalizing done cs with
  | nil => simpa using h
  | cons id ids ih =>
    rw [List.foldl_cons, ← List.singleton_append, ← List.append_assoc]
    split
    · rename_i hid
      exact ih (h.skip hid)
    · rename_i hid
      exact ih (h.place (by simpa using hid))

end Placed

/-! ## The chunks of a program -/

/-- The chunks of the entries, while they are empty. -/
def entryChunks (g : Graph) (inlined : Bool) : List Chunk :=
  (chunkEntries g inlined).zipIdx.map fun p => entryChunk (chunkEntries g inlined).length p.2 p.1

theorem getElem?_entryChunks {n : ℕ} :
    (entryChunks g inlined)[n]? = ((chunkEntries g inlined)[n]?).map fun e =>
      entryChunk (chunkEntries g inlined).length n e := by
  simp [entryChunks, List.getElem?_zipIdx, Function.comp_def]

theorem contains_entryChunk {count number b : ℕ} {e : Graph.Entry} (h : number < count) :
    (entryChunk count number e).bits.contains b ↔ b = number := by
  rw [entryChunk, EntryBits.contains_insert (EntryBits.room h)]
  simp

theorem size_entryChunk {count number : ℕ} {e : Graph.Entry} :
    (entryChunk count number e).bits.bytes.size = (count + 7) / 8 := by
  rw [entryChunk, EntryBits.size_insert, EntryBits.size_ofSize]

theorem placed_entryChunks (g : Graph) (inlined : Bool) :
    Placed (entryBits g inlined) (entryChunks g inlined) [] (entryChunks g inlined) := by
  -- the set of the chunk of an entry holds that entry alone
  have hget : ∀ (i : ℕ) (hi : i < (entryChunks g inlined).length) (b : ℕ),
      (entryChunks g inlined)[i].bits.contains b ↔ b = i := by
    intro i hi b
    have hlt : i < (chunkEntries g inlined).length := by simpa [entryChunks] using hi
    have hchunk : (entryChunks g inlined)[i]? = _ := getElem?_entryChunks
    rw [List.getElem?_eq_getElem hi, List.getElem?_eq_getElem hlt, Option.map_some,
      Option.some_inj] at hchunk
    rw [hchunk, contains_entryChunk hlt]
  refine ⟨?_, fun c hc => ?_, fun c hc => ?_, by simp, [], ?_, by simp⟩
  · rw [List.pairwise_iff_getElem]
    intro i j hi hj hij he
    have hi' := (hget i hi i).2 rfl
    rw [he, hget j hj] at hi'
    omega
  · obtain ⟨i, hi, rfl⟩ := List.getElem_of_mem hc
    rw [← Bool.not_eq_true, EntryBits.isEmpty_iff]
    intro hall
    have hi' := (hget i hi i).2 rfl
    rw [hall] at hi'
    exact absurd hi' (by decide)
  · obtain ⟨p, -, rfl⟩ := List.mem_map.1 hc
    rfl
  · rw [List.append_nil]
    refine (List.map_congr_left fun c hc => ?_).trans (List.map_id _)
    obtain ⟨p, -, rfl⟩ := List.mem_map.1 hc
    rfl

/-- **The chunks of a program are what placing all its modules makes.** -/
theorem placed_split (g : Graph) (inlined : Bool) :
    Placed (entryBits g inlined) (entryChunks g inlined) g.link.sorted
      (split g.link inlined).chunks := by
  have h := (placed_entryChunks g inlined).foldl g.link.sorted
  rw [List.nil_append] at h
  exact h

/-- The chunk with the number of an entry is that entry's. -/
theorem exists_chunk_of_entry {n : ℕ} {e : Graph.Entry}
    (he : (chunkEntries g inlined)[n]? = some e) :
    ∃ c, (split g.link inlined).chunks[n]? = some c ∧
      blank c = entryChunk (chunkEntries g inlined).length n e := by
  obtain ⟨more, hfront, -⟩ := (placed_split g inlined).front
  have hn : (entryChunks g inlined)[n]? =
      some (entryChunk (chunkEntries g inlined).length n e) := by
    rw [getElem?_entryChunks, he, Option.map_some]
  have hlt : n < (entryChunks g inlined).length := (List.getElem?_eq_some_iff.1 hn).1
  rw [← Option.map_eq_some_iff, ← List.getElem?_map, hfront, List.getElem?_append_left hlt, hn]

/-- A chunk that is not common is that of the entry with its number. -/
theorem exists_entry_of_chunk {n : ℕ} {c : Chunk} (hn : (split g.link inlined).chunks[n]? = some c)
    (hkind : c.kind ≠ .common) :
    ∃ e, (chunkEntries g inlined)[n]? = some e ∧
      blank c = entryChunk (chunkEntries g inlined).length n e := by
  obtain ⟨more, hfront, hmore⟩ := (placed_split g inlined).front
  have hmap : (entryChunks g inlined ++ more)[n]? = some (blank c) := by
    rw [← hfront, List.getElem?_map, hn, Option.map_some]
  rcases Nat.lt_or_ge n (entryChunks g inlined).length with hlt | hge
  · rw [List.getElem?_append_left hlt, getElem?_entryChunks, Option.map_eq_some_iff] at hmap
    obtain ⟨e, he, hchunk⟩ := hmap
    exact ⟨e, he, hchunk.symm⟩
  · rw [List.getElem?_append_right hge] at hmap
    exact absurd (hmore _ (List.mem_of_getElem? hmap)) hkind

/-- A chunk that begins with a module is that of the entry with its number. -/
theorem exists_entry_of_begins {n : ℕ} {c : Chunk} {id : String}
    (hn : (split g.link inlined).chunks[n]? = some c) (hid : c.entry? = some id) :
    ∃ e, (chunkEntries g inlined)[n]? = some e ∧ e.id = id ∧
      blank c = entryChunk (chunkEntries g inlined).length n e := by
  have hkind : c.kind ≠ .common := by
    intro hkind
    unfold Chunk.entry? at hid
    simp [hkind] at hid
  obtain ⟨e, he, hblank⟩ := exists_entry_of_chunk hn hkind
  refine ⟨e, he, ?_, hblank⟩
  have hentry : Chunk.entry? (blank c) = some id := hid
  rw [hblank] at hentry
  exact Option.some_inj.1 hentry

/-- The chunk of an entry stands for that entry alone. -/
theorem contains_bits_of_entry {n b : ℕ} {c : Chunk} {e : Graph.Entry}
    (he : (chunkEntries g inlined)[n]? = some e)
    (hc : blank c = entryChunk (chunkEntries g inlined).length n e) :
    c.bits.contains b ↔ b = n := by
  have hbits : c.bits = (entryChunk (chunkEntries g inlined).length n e).bits := by rw [← hc]; rfl
  rw [hbits, contains_entryChunk (List.getElem?_eq_some_iff.1 he).1]

/-- A chunk holds the modules that run and that its entries reach. -/
theorem mem_modules_iff {c : Chunk} (hc : c ∈ (split g.link inlined).chunks) {id : String} :
    id ∈ c.modules ↔ id ∈ g.link.sorted ∧ entryBits g inlined id = c.bits := by
  rw [(placed_split g inlined).modules c hc, List.mem_filter, decide_eq_true_iff]

/-- Chunks with the same bits are the same. -/
theorem eq_of_bits_eq {i j : ℕ} {c c' : Chunk} (hc : (split g.link inlined).chunks[i]? = some c)
    (hc' : (split g.link inlined).chunks[j]? = some c') (h : c.bits = c'.bits) : i = j := by
  obtain ⟨hi, hci⟩ := List.getElem?_eq_some_iff.1 hc
  obtain ⟨hj, hcj⟩ := List.getElem?_eq_some_iff.1 hc'
  have hd := List.pairwise_iff_getElem.1 (placed_split g inlined).distinct
  rcases Nat.lt_trichotomy i j with hlt | heq | hgt
  · exact absurd (hci ▸ hcj ▸ h) (hd i j hi hj hlt)
  · exact heq
  · exact absurd (hci ▸ hcj ▸ h.symm) (hd j i hj hi hgt)

/-- **The chunk of a module is the one that holds it.** -/
theorem chunkOf?_eq_some_iff {id : String} {n : ℕ} :
    (split g.link inlined).chunkOf? id = some n ↔
      ∃ c, (split g.link inlined).chunks[n]? = some c ∧ id ∈ c.modules := by
  rw [chunkOf?, List.findIdx?_eq_some_iff_getElem]
  constructor
  · rintro ⟨hn, hid, -⟩
    exact ⟨_, List.getElem?_eq_getElem hn, List.contains_iff_mem.1 hid⟩
  · rintro ⟨c, hc, hid⟩
    obtain ⟨hn, rfl⟩ := List.getElem?_eq_some_iff.1 hc
    refine ⟨hn, List.contains_iff_mem.2 hid, fun j hj => ?_⟩
    rw [List.contains_iff_mem]
    intro hid'
    have hlt : j < (split g.link inlined).chunks.length := Nat.lt_trans hj hn
    have he := ((mem_modules_iff (List.getElem_mem hn)).1 hid).2
    have he' := ((mem_modules_iff (List.getElem_mem hlt)).1 hid').2
    have := eq_of_bits_eq (List.getElem?_eq_getElem hlt) hc (he'.symm.trans he)
    omega

end DepBundle.ChunkGraph
