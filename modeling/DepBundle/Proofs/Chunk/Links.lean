import DepBundle.Chunk.Render
import DepBundle.Proofs.Chunk.Partition
import Mathlib.Data.Finset.Card
import Mathlib.Data.Finset.Range
/-!
# Chunks — imports between chunks

What the links of a chunk hold, read off the folds that collect them
(`mem_chunks_linksOf` and its companions). A chunk imports another only
where all its entries reach something there and another entry does too, so
imports lead from smaller sets of entries to larger ones and never come
back (`split_linksUpward`), whatever circles the modules make.
-/

namespace DepBundle

namespace EntryBits

instance : HasSubset EntryBits := ⟨fun s t => ∀ b, s.contains b → t.contains b⟩

instance : HasSSubset EntryBits := ⟨fun s t => s ⊆ t ∧ ¬ t ⊆ s⟩

variable {s t u : EntryBits}

theorem subset_antisymm (hsize : s.bytes.size = t.bytes.size) (hst : s ⊆ t) (hts : t ⊆ s) :
    s = t :=
  eq_of_contains hsize fun b => Bool.eq_iff_iff.2 ⟨hst b, hts b⟩

theorem ssubset_irrefl (s : EntryBits) : ¬ s ⊂ s := fun h => h.2 h.1

theorem ssubset_trans (hst : s ⊂ t) (htu : t ⊂ u) : s ⊂ u :=
  ⟨fun b hb => htu.1 b (hst.1 b hb), fun hus => htu.2 fun b hb => hst.1 b (hus b hb)⟩

/-- How many of the numbers that a set has room for are not in it. -/
def vacancies (s : EntryBits) : ℕ :=
  ((Finset.range (8 * s.bytes.size)).filter fun b => s.contains b = false).card

/-- A larger set leaves fewer numbers out. -/
theorem vacancies_lt (hsize : s.bytes.size = t.bytes.size) (h : s ⊂ t) :
    t.vacancies < s.vacancies := by
  obtain ⟨hst, hts⟩ := h
  obtain ⟨b, hb, hsb⟩ : ∃ b, t.contains b ∧ ¬ s.contains b := by
    by_contra hall
    exact hts fun b hb => by_contra fun hsb => hall ⟨b, hb, hsb⟩
  have hroom : b < 8 * s.bytes.size := by
    rw [hsize]
    by_contra hge
    rw [contains_of_size_le (by omega)] at hb
    exact absurd hb (by decide)
  refine Finset.card_lt_card ⟨?_, fun hsub => ?_⟩
  · intro i hi
    rw [Finset.mem_filter, ← hsize, ← Bool.not_eq_true] at hi
    rw [Finset.mem_filter, ← Bool.not_eq_true]
    exact ⟨hi.1, fun hsi => hi.2 (hst i hsi)⟩
  · have hmem : b ∈ (Finset.range (8 * s.bytes.size)).filter fun i => s.contains i = false :=
      Finset.mem_filter.2 ⟨Finset.mem_range.2 hroom, Bool.not_eq_true _ ▸ hsb⟩
    rw [(Finset.mem_filter.1 (hsub hmem)).2] at hb
    exact absurd hb (by decide)

end EntryBits

namespace ChunkGraph

open Relation DepBundle.Graph

/-! ## What links hold -/

section

variable {s : ChunkGraph} {number k : ℕ} {links : Links} {c : Chunk} {id x : String}

/-- A chunk, other than the one with a number, that holds a module of the
output. -/
def HeldElsewhere (s : ChunkGraph) (number k : ℕ) (id : String) : Prop :=
  k ≠ number ∧ s.graph.isExternal id = false ∧ s.chunkOf? id = some k

/-- A module of the output that has to be registered with another. -/
def NeedsRecord (s : ChunkGraph) (id x : String) : Prop :=
  s.graph.AsksFor id x ∨ s.inlined ∧ s.graph.MayAskFor id x

theorem mem_chunks_needModule :
    k ∈ (s.needModule number links id).chunks ↔ k ∈ links.chunks ∨ s.HeldElsewhere number k id := by
  rw [needModule, HeldElsewhere]
  cases hext : s.graph.isExternal id with
  | true => simp
  | false =>
    cases hchunk : s.chunkOf? id with
    | none => simp
    | some other =>
      by_cases heq : other = number
      · subst heq
        simp only [Bool.false_eq_true, if_false, if_true, Option.some_inj, true_and]
        constructor
        · exact Or.inl
        · rintro (h | ⟨hne, rfl⟩)
          · exact h
          · exact absurd rfl hne
      · simp only [Bool.false_eq_true, if_false, heq, OrderedSet.mem_insert, Option.some_inj,
          true_and]
        constructor
        · rintro (rfl | h)
          · exact Or.inr ⟨heq, rfl⟩
          · exact Or.inl h
        · rintro (h | ⟨-, rfl⟩)
          · exact Or.inr h
          · exact Or.inl rfl

theorem mem_externals_needModule : x ∈ (s.needModule number links id).externals ↔
    x ∈ links.externals ∨ x = id ∧ s.graph.isExternal id := by
  rw [needModule]
  cases hext : s.graph.isExternal id with
  | true => simp only [if_true, OrderedSet.mem_insert, and_true, or_comm]
  | false =>
    cases s.chunkOf? id with
    | none => simp
    | some other => by_cases heq : other = number <;> simp [heq]

@[simp] theorem dynamic_needModule : (s.needModule number links id).dynamic = links.dynamic := by
  rw [needModule]
  split
  · rfl
  · split
    · split <;> rfl
    · rfl

@[simp] theorem chunks_needLater : (s.needLater links id).chunks = links.chunks := by
  rw [needLater]
  split <;> rfl

@[simp] theorem externals_needLater : (s.needLater links id).externals = links.externals := by
  rw [needLater]
  split <;> rfl

theorem mem_dynamic_needLater : (x, k) ∈ (s.needLater links id).dynamic ↔
    (x, k) ∈ links.dynamic ∨ x = id ∧ s.entryChunkOf? id = some k := by
  rw [needLater]
  cases hchunk : s.entryChunkOf? id with
  | none => simp
  | some number =>
    simp only [OrderedSet.mem_insert, Prod.mk.injEq, Option.some_inj, eq_comm (a := number),
      or_comm]

/-! ### Of a module and of a chunk -/

theorem mem_chunks_needModules {l : List String} :
    k ∈ (l.foldl (s.needModule number) links).chunks ↔
      k ∈ links.chunks ∨ ∃ x ∈ l, s.HeldElsewhere number k x :=
  foldl_iff (f := s.needModule number) (P := fun links : Links => k ∈ links.chunks)
    (fun _ _ => mem_chunks_needModule) l links

theorem mem_externals_needModules {l : List String} :
    x ∈ (l.foldl (s.needModule number) links).externals ↔
      x ∈ links.externals ∨ x ∈ l ∧ s.graph.isExternal x := by
  rw [foldl_iff (f := s.needModule number) (P := fun links : Links => x ∈ links.externals)
    fun _ _ => mem_externals_needModule]
  simp only [and_left_comm, exists_eq_left']

@[simp] theorem dynamic_needModules {l : List String} :
    (l.foldl (s.needModule number) links).dynamic = links.dynamic :=
  foldl_eq (p := Links.dynamic) (fun _ _ => dynamic_needModule) l links

@[simp] theorem chunks_needLaters {l : List String} :
    (l.foldl s.needLater links).chunks = links.chunks :=
  foldl_eq (p := Links.chunks) (fun _ _ => chunks_needLater) l links

@[simp] theorem externals_needLaters {l : List String} :
    (l.foldl s.needLater links).externals = links.externals :=
  foldl_eq (p := Links.externals) (fun _ _ => externals_needLater) l links

theorem mem_dynamic_needLaters {l : List String} :
    (x, k) ∈ (l.foldl s.needLater links).dynamic ↔
      (x, k) ∈ links.dynamic ∨ x ∈ l ∧ s.entryChunkOf? x = some k := by
  rw [foldl_iff (f := s.needLater) (P := fun links : Links => (x, k) ∈ links.dynamic)
    fun _ _ => mem_dynamic_needLater]
  simp only [and_left_comm, exists_eq_left']

theorem mem_chunks_needsOf : k ∈ (s.needsOf number links id).chunks ↔
    k ∈ links.chunks ∨ ∃ x, s.NeedsRecord id x ∧ s.HeldElsewhere number k x := by
  have hdep : ∀ x, x ∈ (s.graph.dependencies id).toList ↔ s.graph.AsksFor id x :=
    fun x => mem_dependencies
  rw [needsOf]
  cases hin : s.inlined with
  | false =>
    rw [if_neg (by decide), chunks_needLaters, mem_chunks_needModules]
    simp only [hdep, NeedsRecord, hin, Bool.false_eq_true, false_and, or_false]
  | true =>
    rw [if_pos rfl, mem_chunks_needModules, mem_chunks_needModules, or_assoc, ← exists_or]
    refine or_congr_right (exists_congr fun x => ?_)
    rw [← or_and_right, hdep, NeedsRecord, hin]
    refine and_congr_left fun hx => or_congr_right ?_
    rw [and_iff_right rfl]
    exact mem_dynamicDependencies.trans (and_iff_left hx.2.1)

theorem mem_externals_needsOf : x ∈ (s.needsOf number links id).externals ↔
    x ∈ links.externals ∨ s.graph.AsksFor id x ∧ s.graph.isExternal x := by
  have hdep : x ∈ (s.graph.dependencies id).toList ↔ s.graph.AsksFor id x := mem_dependencies
  rw [needsOf]
  cases s.inlined with
  | false =>
    rw [if_neg (by decide), externals_needLaters, mem_externals_needModules, hdep]
  | true =>
    rw [if_pos rfl, mem_externals_needModules, mem_externals_needModules, hdep]
    refine or_iff_left ?_
    rintro ⟨h, hx⟩
    rw [(mem_dynamicDependencies.1 h).2] at hx
    exact absurd hx (by decide)

theorem mem_dynamic_needsOf : (x, k) ∈ (s.needsOf number links id).dynamic ↔
    (x, k) ∈ links.dynamic ∨ s.inlined = false ∧
      (s.graph.MayAskFor id x ∧ s.graph.isExternal x = false) ∧ s.entryChunkOf? x = some k := by
  rw [needsOf]
  cases hin : s.inlined with
  | false =>
    rw [if_neg (by decide), mem_dynamic_needLaters, dynamic_needModules, and_iff_right rfl]
    exact or_congr_right (and_congr_left fun _ => mem_dynamicDependencies)
  | true =>
    rw [if_pos rfl, dynamic_needModules, dynamic_needModules]
    simp

theorem mem_chunks_needEntry {entry : Option String} :
    k ∈ (s.needEntry number links entry).chunks ↔
      k ∈ links.chunks ∨ ∃ e, entry = some e ∧ k ≠ number ∧ s.chunkOf? e = some k := by
  cases entry with
  | none => simp [needEntry]
  | some e =>
    rw [needEntry]
    cases hchunk : s.chunkOf? e with
    | none => simp [hchunk]
    | some other =>
      by_cases heq : other = number
      · subst heq
        simp only [if_true, Option.some_inj, exists_eq_left', hchunk]
        grind
      · simp only [heq, if_false, OrderedSet.mem_insert, Option.some_inj, exists_eq_left', hchunk]
        grind

@[simp] theorem externals_needEntry {entry : Option String} :
    (s.needEntry number links entry).externals = links.externals := by
  cases entry with
  | none => rfl
  | some e =>
    rw [needEntry]
    split
    · split <;> rfl
    · rfl

@[simp] theorem dynamic_needEntry {entry : Option String} :
    (s.needEntry number links entry).dynamic = links.dynamic := by
  cases entry with
  | none => rfl
  | some e =>
    rw [needEntry]
    split
    · split <;> rfl
    · rfl

/-- **The chunks that a chunk imports** hold what its modules need there,
or its entry. -/
theorem mem_chunks_linksOf : k ∈ (s.linksOf number c).chunks ↔
    (∃ m ∈ c.modules, ∃ x, s.NeedsRecord m x ∧ s.HeldElsewhere number k x) ∨
      ∃ e, c.entry? = some e ∧ k ≠ number ∧ s.chunkOf? e = some k := by
  rw [linksOf, mem_chunks_needEntry,
    foldl_iff (f := s.needsOf number) (P := fun links : Links => k ∈ links.chunks)
      fun _ _ => mem_chunks_needsOf]
  exact or_congr_left (or_iff_right (List.not_mem_nil))

/-- **The modules of the host that a chunk imports** are those its modules
ask for. -/
theorem mem_externals_linksOf : x ∈ (s.linksOf number c).externals ↔
    ∃ m ∈ c.modules, s.graph.AsksFor m x ∧ s.graph.isExternal x := by
  rw [linksOf, externals_needEntry,
    foldl_iff (f := s.needsOf number) (P := fun links : Links => x ∈ links.externals)
      fun _ _ => mem_externals_needsOf]
  exact or_iff_right (List.not_mem_nil)

/-- **What a chunk may load later** is what its modules may ask for, with
the chunk that begins there. -/
theorem mem_dynamic_linksOf : (x, k) ∈ (s.linksOf number c).dynamic ↔
    ∃ m ∈ c.modules, s.inlined = false ∧
      (s.graph.MayAskFor m x ∧ s.graph.isExternal x = false) ∧ s.entryChunkOf? x = some k := by
  rw [linksOf, dynamic_needEntry,
    foldl_iff (f := s.needsOf number) (P := fun links : Links => (x, k) ∈ links.dynamic)
      fun _ _ => mem_dynamic_needsOf]
  exact or_iff_right (List.not_mem_nil)

end

/-! ## Imports lead upwards -/

variable {g : Graph} {inlined : Bool} {n k : ℕ} {c c' : Chunk}

/-- A chunk imports the registry of another. -/
def Imports (s : ChunkGraph) (n k : ℕ) : Prop :=
  ∃ c, s.chunks[n]? = some c ∧ k ∈ (s.linksOf n c).chunks

/-- What a module draws in is reached by every entry that reaches it. -/
theorem entryBits_subset_of_draws {a b : String} (h : g.Draws inlined a b) :
    entryBits g inlined a ⊆ entryBits g inlined b := by
  intro i hi
  obtain ⟨e, he, hea⟩ := contains_entryBits.1 hi
  exact contains_entryBits.2 ⟨e, he, hea.draws h⟩

/-- **Where a chunk needs what is in another,** all its entries reach what
is there. -/
theorem bits_subset_of_mem_links (hn : (split g.link inlined).chunks[n]? = some c)
    (hk : k ∈ ((split g.link inlined).linksOf n c).chunks) :
    k ≠ n ∧ ∃ c', (split g.link inlined).chunks[k]? = some c' ∧ c.bits ⊆ c'.bits ∧
      c.bits.bytes.size = c'.bits.bytes.size := by
  have hc := List.mem_of_getElem? hn
  obtain ⟨m, hm, x, hneeds, hne, -, hx⟩ | ⟨id, hentry, hne, hid⟩ := mem_chunks_linksOf.1 hk
  · obtain ⟨c', hk', hxc'⟩ := chunkOf?_eq_some_iff.1 hx
    have hc' := List.mem_of_getElem? hk'
    have hbundled := (mem_sorted_iff.1 ((mem_modules_iff hc').1 hxc').1).2
    refine ⟨hne, c', hk', ?_, ?_⟩
    · rw [← bits_eq_of_mem hc hm, ← bits_eq_of_mem hc' hxc']
      exact entryBits_subset_of_draws ⟨hbundled, hneeds⟩
    · rw [← bits_eq_of_mem hc hm, ← bits_eq_of_mem hc' hxc', size_entryBits, size_entryBits]
  · -- the chunk of an entry that is held by another chunk
    obtain ⟨e, he, rfl, hblank⟩ := exists_entry_of_begins hn hentry
    obtain ⟨c', hk', hidc'⟩ := chunkOf?_eq_some_iff.1 hid
    have hc' := List.mem_of_getElem? hk'
    have hbundled := (mem_sorted_iff.1 ((mem_modules_iff hc').1 hidc').1).2
    refine ⟨hne, c', hk', ?_, ?_⟩
    · intro b hb
      rw [(contains_bits_of_entry he hblank).1 hb, ← bits_eq_of_mem hc' hidc']
      exact contains_entryBits.2 ⟨e, he, hbundled, ReflTransGen.refl⟩
    · have hsize : c.bits.bytes.size = (blank c).bits.bytes.size := rfl
      rw [hsize, hblank, size_entryChunk, ← bits_eq_of_mem hc' hidc', size_entryBits]

/-- A chunk imports only chunks of more entries. -/
theorem bits_ssubset_of_mem_links (hn : (split g.link inlined).chunks[n]? = some c)
    (hk : k ∈ ((split g.link inlined).linksOf n c).chunks) :
    ∃ c', (split g.link inlined).chunks[k]? = some c' ∧ c.bits ⊂ c'.bits ∧
      c'.bits.vacancies < c.bits.vacancies := by
  obtain ⟨hne, c', hk', hsub, hsize⟩ := bits_subset_of_mem_links hn hk
  have hlt : c.bits ⊂ c'.bits := ⟨hsub, fun hsub' =>
    hne (eq_of_bits_eq hk' hn (EntryBits.subset_antisymm hsize hsub hsub').symm)⟩
  exact ⟨c', hk', hlt, EntryBits.vacancies_lt hsize hlt⟩

/-- A chunk of more entries than another is common: an entry's own chunk
has one, and no chunk has none. -/
theorem kind_eq_common_of_ssubset (hc : c ∈ (split g.link inlined).chunks)
    (hk : (split g.link inlined).chunks[k]? = some c') (hlt : c.bits ⊂ c'.bits) :
    c'.kind = .common := by
  by_contra hkind
  obtain ⟨e, he, hblank⟩ := exists_entry_of_chunk hk hkind
  obtain ⟨b, hb⟩ : ∃ b, c.bits.contains b := by
    by_contra hnone
    have hempty : c.bits.isEmpty := by
      rw [EntryBits.isEmpty_iff]
      intro b
      rw [← Bool.not_eq_true]
      exact fun hb => hnone ⟨b, hb⟩
    rw [(placed_split g inlined).nonempty c hc] at hempty
    exact absurd hempty (by decide)
  -- an entry's own chunk stands for one entry, which the smaller set would have too
  refine hlt.2 fun b' hb' => ?_
  rw [contains_bits_of_entry he hblank] at hb'
  rw [hb', ← (contains_bits_of_entry he hblank).1 (hlt.1 b hb)]
  exact hb

/-- Along imports the sets of entries grow. -/
theorem bits_ssubset_of_transGen (h : TransGen (split g.link inlined).Imports n k) :
    ∃ c c', (split g.link inlined).chunks[n]? = some c ∧
      (split g.link inlined).chunks[k]? = some c' ∧ c.bits ⊂ c'.bits := by
  induction h with
  | single h =>
    obtain ⟨c, hn, hk⟩ := h
    obtain ⟨c', hk', hlt, -⟩ := bits_ssubset_of_mem_links hn hk
    exact ⟨c, c', hn, hk', hlt⟩
  | tail _ h ih =>
    obtain ⟨c, c', hn, hk', hlt⟩ := ih
    obtain ⟨d, hd, hl⟩ := h
    obtain ⟨d', hl', hlt', -⟩ := bits_ssubset_of_mem_links hd hl
    rw [hk', Option.some_inj] at hd
    subst hd
    exact ⟨c, d', hn, hl', EntryBits.ssubset_trans hlt hlt'⟩

/-- The statement by which a chunk gives its registry to others. -/
def registryExport : String := "\nexport \x7b __trimpack_modules \x7d;\n"

/-- Common chunks give their registries to others, and no others do. -/
theorem sharedExports_eq_registryExport_iff (r : Rendering) {isDynamic : Bool} :
    r.sharedExports c isDynamic = registryExport ↔ c.kind = .common := by
  unfold Rendering.sharedExports Chunk.entry?
  cases c.kind with
  | common => simp [registryExport]
  | entry id isUserDefined =>
    simp only [Option.isNone_some, Bool.false_eq_true, if_false, reduceCtorEq, iff_false]
    split <;> decide

/-- **What it is for imports between chunks to lead upwards.** -/
structure LinksUpward (s : ChunkGraph) : Prop where
  /-- What a chunk imports is a common chunk of more entries, one that gives
  its registry to others. -/
  upward : ∀ n k, s.Imports n k → ∃ c c', s.chunks[n]? = some c ∧ s.chunks[k]? = some c' ∧
    c.bits ⊂ c'.bits ∧ c'.kind = .common ∧
    ∀ (r : Rendering) isDynamic, r.sharedExports c' isDynamic = registryExport
  /-- The chunks of entries give theirs to none. -/
  closed : ∀ c ∈ s.chunks, c.kind ≠ .common →
    ∀ (r : Rendering) isDynamic, r.sharedExports c isDynamic ≠ registryExport
  /-- Imports never come back to where they began. -/
  acyclic : ∀ n, ¬ TransGen s.Imports n n

/-- **Imports between the chunks of a program lead upwards,** and so never
in a circle. -/
theorem split_linksUpward (g : Graph) (inlined : Bool) :
    LinksUpward (split g.link inlined) where
  upward n k h := by
    obtain ⟨c, hn, hk⟩ := h
    obtain ⟨c', hk', hlt, -⟩ := bits_ssubset_of_mem_links hn hk
    have hkind := kind_eq_common_of_ssubset (List.mem_of_getElem? hn) hk' hlt
    exact ⟨c, c', hn, hk', hlt, hkind, fun r _ =>
      (sharedExports_eq_registryExport_iff r).2 hkind⟩
  closed c _ hkind r _ h := hkind ((sharedExports_eq_registryExport_iff r).1 h)
  acyclic n h := by
    obtain ⟨c, c', hn, hn', hlt⟩ := bits_ssubset_of_transGen h
    rw [hn, Option.some_inj] at hn'
    subst hn'
    exact EntryBits.ssubset_irrefl _ hlt

end ChunkGraph

end DepBundle
