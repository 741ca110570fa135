import DepBundle.Proofs.Chunk.Registry
import DepBundle.Proofs.Graph.Loading
import DepBundle.Proofs.Module.Key
/-!
# Chunks — what modules ask for is served

What a module asks for is found in the chunk it is in (`split_serves`): a
part of the output in the registry, a module of the host in the table of
those, and what an `import()` leads to in the registry of the chunk that it
loads. The one thing that gets in the way is a key that objects of the host
give a meaning of their own.
-/

namespace DepBundle

namespace Graph

variable {around : Surroundings} {g : Graph} {id id' : String} {m m' : Bundled}

/-- **What the loader promises of a program.** -/
structure Loadable (around : Surroundings) (g : Graph) : Prop where
  /-- The directory that keys begin at is known from the root. -/
  rooted : around.settings.cwd.isAbsolute
  /-- What is asked for, with effect, is part of the program. -/
  closed : ∀ id, ∀ request ∈ g.requests id, g.vertices.contains request.2
  later : g.EntersLater
  /-- Modules stand under their ids and go by their keys. -/
  keyed : ∀ id m, g.bundled? id = some m → m.id = id ∧ m.key = Task.keyOf around id
  proper : ∀ id, (g.bundled? id).isSome → Module.IsProper id

theorem loadable_iff : Loadable around g ↔ around.settings.cwd.isAbsolute ∧
    (∀ id ∈ g.vertices.keys, ∀ request ∈ g.requests id, g.vertices.contains request.2) ∧
    g.EntersLater ∧
    (∀ id ∈ g.vertices.keys, (g.bundled? id).all fun m =>
      m.id == id && m.key == Task.keyOf around id) ∧
    ∀ id ∈ g.vertices.keys, (g.bundled? id).isSome → Module.IsProper id := by
  have hkeys : ∀ {id m}, g.bundled? id = some m → id ∈ g.vertices.keys :=
    fun hm => mem_keys_of_bundled (hm ▸ rfl)
  simp only [Option.all_eq_true, Bool.and_eq_true, beq_iff_eq]
  constructor
  · rintro ⟨hroot, hclosed, hlater, hkeyed, hproper⟩
    exact ⟨hroot, fun id _ => hclosed id, hlater, fun id _ => hkeyed id, fun id _ => hproper id⟩
  · rintro ⟨hroot, hclosed, hlater, hkeyed, hproper⟩
    refine ⟨hroot, fun id request hr => ?_, hlater, fun id m hm => hkeyed id (hkeys hm) m hm,
      fun id hid => hproper id (mem_keys_of_bundled hid) hid⟩
    exact hclosed id (mem_keys_of_bundled (bundled_of_mem_requests hr)) request hr

instance : Decidable (Loadable around g) := decidable_of_iff _ loadable_iff.symm

/-- What is loaded keeps these promises, as far as they are the loader's
own. -/
theorem loadable_of_load {warnings : List Compile.Warning}
    (h : load around = .ok (g, warnings)) (hroot : around.settings.cwd.isAbsolute)
    (hlater : g.EntersLater) (hproper : ∀ id, (g.bundled? id).isSome → Module.IsProper id) :
    Loadable around g :=
  ⟨hroot, fun _ => load_closed h, hlater, fun _ _ hm => load_keyed h hm, hproper⟩

/-- Different modules of a program have different keys. -/
theorem Loadable.key_inj (h : Loadable around g) (hm : g.bundled? id = some m)
    (hm' : g.bundled? id' = some m') (hkey : m.key = m'.key) : id = id' := by
  rw [(h.keyed id m hm).2, (h.keyed id' m' hm').2, Task.keyOf, Task.keyOf] at hkey
  exact Module.stableKey_inj h.rooted (h.proper id (hm ▸ rfl)) (h.proper id' (hm' ▸ rfl)) hkey

/-- What is asked for is part of the output or left to the host. -/
theorem Loadable.bundled_or_external (h : Loadable around g) {record : Module.Record}
    (hr : (record, id') ∈ g.requests id) :
    (∃ m, g.bundled? id' = some m) ∨ g.isExternal id' := by
  obtain ⟨v, hv⟩ := Option.isSome_iff_exists.1 (h.closed id _ hr)
  cases v with
  | bundled m => exact Or.inl ⟨m, by simp [bundled?, hv, Vertex.bundled?]⟩
  | external => exact Or.inr (by simp [isExternal, hv])

end Graph

namespace ChunkGraph

open Relation DepBundle.Graph

/-! ## What it is to be served -/

/-- The statement by which a chunk lets others run its modules. -/
def loadExport : String := "\nexport \x7b __trimpack_load \x7d;\n"

/-- The code of a chunk goes on with a statement after the helpers. -/
def Shares (s : ChunkGraph) (n : ℕ) (c : Chunk) (statement : String) : Prop :=
  ∀ r : Rendering, r.split = s →
    ∃ front back, (r.chunk n c).code = front ++ helpers ++ statement ++ back

/-- The members of the table of the modules of the host. -/
def hostMembers (links : Links) : List (String × String) :=
  links.externals.toList.map fun id => (id, id)

/-- The members of the table of the chunks to load later. -/
def laterMembers (s : ChunkGraph) (links : Links) : List (String × ℕ) :=
  links.dynamic.toList.map fun (id, k) => (s.graph.keyOf id, k)

/-- The chunk with a number has the record of a module under a key: its own
record, or one of a chunk that it imports and that shares its registry. -/
structure Registers (s : ChunkGraph) (R : ℕ → Registry) (n : ℕ) (c : Chunk) (id key : String) :
    Prop where
  held : ∃ k c', s.chunkOf? id = some k ∧ s.chunks[k]? = some c' ∧
    (k = n ∨ k ∈ (s.linksOf n c).chunks ∧ s.Shares k c' registryExport) ∧
    R n key = if key = prototypeName then none else some (k, id)

/-- What `import()` of a key comes to in a chunk: where the table of chunks
to load later has no answer, a record of its own registry, else one of the
chunk that is loaded, which has to share how to run its modules. -/
inductive LoadsLater (s : ChunkGraph) (R : ℕ → Registry) (n : ℕ) (c : Chunk) (key : String)
    (record : ℕ × String) : Prop where
  | here (hread : readPlain (s.laterMembers (s.linksOf n c)) key = .missing)
      (hrecord : R n key = some record)
  | there {k : ℕ} {c' : Chunk} (hread : readPlain (s.laterMembers (s.linksOf n c)) key = .own k)
      (hk : s.chunks[k]? = some c') (hshares : s.Shares k c' loadExport)
      (hrecord : R k key = some record)

/-- The keys under which an `import()` finds nothing. -/
def unloadable (s : ChunkGraph) : List String :=
  if s.inlined then inheritedNames else [prototypeName]

/-- **What it is for a chunk to serve its modules.** -/
structure Serves (s : ChunkGraph) (R : ℕ → Registry) (n : ℕ) (c : Chunk) : Prop where
  /-- What has to be there before a module runs is in the registry, or in
  the table of the modules of the host. -/
  now : ∀ id ∈ c.modules, ∀ d, s.graph.AsksFor id d →
    (∃ m, s.graph.bundled? d = some m ∧ s.Registers R n c d m.key) ∨
      (s.graph.isExternal d ∧ d ∈ (s.linksOf n c).externals ∧
        ownProperty (hostMembers (s.linksOf n c)) d = if d = prototypeName then none else some d)
  /-- What may be loaded later is in the registry, or in that of a chunk
  that begins there and that the table of those has; and the `import()`
  comes to its record and to no other. -/
  later : ∀ id ∈ c.modules, ∀ d, s.graph.MayAskFor id d → s.graph.isExternal d ∨
    ∃ m k, s.graph.bundled? d = some m ∧ s.chunkOf? d = some k ∧
      (if s.inlined then s.Registers R n c d m.key
        else ∃ k' c', (d, k') ∈ (s.linksOf n c).dynamic ∧ s.chunks[k']? = some c' ∧
          s.Shares k' c' loadExport ∧ s.Registers R k' c' d m.key) ∧
      ∀ record, s.LoadsLater R n c m.key record ↔ m.key ∉ s.unloadable ∧ record = (k, d)
  /-- The chunk of an entry has its entry. -/
  entry : ∀ e m, c.entry? = some e → s.graph.bundled? e = some m → s.Registers R n c e m.key

/-! ## What chunks share -/

variable {around : Surroundings} {g : Graph} {inlined : Bool} {n k : ℕ} {c c' : Chunk}
  {R : ℕ → Registry} {id d e : String} {m : Bundled}

/-- Whether some `import()` leads to the entry of a chunk. -/
def isLoadedLater (s : ChunkGraph) (c : Chunk) : Bool :=
  Option.any (fun m => s.graph.isDynamicTarget m.id) <| c.entry?.bind s.graph.bundled?

/-- After the helpers stands what a chunk shares. -/
theorem shares_of_sharedExports {s : ChunkGraph} {statement : String}
    (h : ∀ r : Rendering, r.split = s → r.sharedExports c (s.isLoadedLater c) = statement) :
    s.Shares n c statement := by
  intro r hr
  rw [← h r hr, ← hr]
  exact ⟨_, _, rfl⟩

theorem shares_of_common {s : ChunkGraph} (h : c.kind = .common) : s.Shares n c registryExport :=
  shares_of_sharedExports fun r _ => (sharedExports_eq_registryExport_iff r).2 h

theorem shares_of_loadedLater {s : ChunkGraph} (hin : s.inlined = false)
    (h : s.isLoadedLater c) : s.Shares n c loadExport := by
  refine shares_of_sharedExports fun r hr => ?_
  have hentry : c.entry?.isNone = false := by
    cases hc : c.entry? with
    | none => simp [isLoadedLater, hc] at h
    | some e => rfl
  rw [Rendering.sharedExports, hr, h, hin, hentry]
  rfl

/-! ## Where modules are registered -/

/-- **A module is registered where it is held and where its chunk is
imported.** -/
theorem registers_of_held (hg : Loadable around g) (hR : Evaluates (split g.link inlined) R)
    (hn : (split g.link inlined).chunks[n]? = some c)
    (hk : (split g.link inlined).chunkOf? id = some k)
    (hsee : k = n ∨ k ∈ ((split g.link inlined).linksOf n c).chunks)
    (hm : g.bundled? id = some m) : (split g.link inlined).Registers R n c id m.key := by
  obtain ⟨c', hc', hid⟩ := chunkOf?_eq_some_iff.1 hk
  refine ⟨k, c', hk, hc', hsee.imp_right fun hlink => ⟨hlink, ?_⟩, ?_⟩
  · obtain ⟨d, hd, hlt, -⟩ := bits_ssubset_of_mem_links hn hlink
    rw [hc', Option.some_inj] at hd
    subst hd
    exact shares_of_common (kind_eq_common_of_ssubset (List.mem_of_getElem? hn) hc' hlt)
  · exact registry_eq hR (fun _ _ _ _ h h' hkey => hg.key_inj h h' hkey) hn hc' hsee hid hm

/-- What is reached has a chunk. -/
theorem exists_chunkOf?_of_reaches (hlater : g.EntersLater)
    (h : ∃ e ∈ chunkEntries g inlined, g.Reaches inlined e.id id) :
    ∃ k, (split g.link inlined).chunkOf? id = some k := by
  obtain ⟨k, c, hk, hid⟩ := exists_chunk_of_reaches hlater h
  exact ⟨k, chunkOf?_eq_some_iff.2 ⟨c, hk, hid⟩⟩

/-- **What a module draws in is registered in its chunk.** -/
theorem registers_of_draws (hg : Loadable around g) (hR : Evaluates (split g.link inlined) R)
    (hn : (split g.link inlined).chunks[n]? = some c) (hid : id ∈ c.modules)
    (hdraws : g.Draws inlined id d) (hm : g.bundled? d = some m) :
    (split g.link inlined).Registers R n c d m.key := by
  obtain ⟨e, he, hreach⟩ := exists_reaches_of_mem (List.mem_of_getElem? hn) hid
  obtain ⟨k, hk⟩ := exists_chunkOf?_of_reaches hg.later ⟨e, he, hreach.draws hdraws⟩
  refine registers_of_held hg hR hn hk ?_ hm
  by_cases heq : k = n
  · exact Or.inl heq
  · refine Or.inr (mem_chunks_linksOf.2 (Or.inl ⟨id, hid, d, hdraws.2, heq, ?_, hk⟩))
    exact isExternal_of_bundled hdraws.1

/-- **An entry is registered in the chunk that begins there.** -/
theorem registers_of_entry (hg : Loadable around g) (hR : Evaluates (split g.link inlined) R)
    (hn : (split g.link inlined).chunks[n]? = some c) (he : c.entry? = some e)
    (hm : g.bundled? e = some m) : (split g.link inlined).Registers R n c e m.key := by
  obtain ⟨entry, hentry, rfl, hblank⟩ := exists_entry_of_begins hn he
  have hreach : ∃ e ∈ chunkEntries g inlined, g.Reaches inlined e.id entry.id :=
    ⟨entry, List.mem_of_getElem? hentry, hm ▸ rfl, ReflTransGen.refl⟩
  obtain ⟨k, hk⟩ := exists_chunkOf?_of_reaches hg.later hreach
  refine registers_of_held hg hR hn hk ?_ hm
  by_cases heq : k = n
  · exact Or.inl heq
  · exact Or.inr (mem_chunks_linksOf.2 (Or.inr ⟨entry.id, he, heq, hk⟩))

/-! ## Loading later -/

theorem exists_of_entryChunkOf? {s : ChunkGraph} (h : s.entryChunkOf? id = some k) :
    ∃ c, s.chunks[k]? = some c ∧ c.entry? = some id := by
  rw [entryChunkOf?, Option.map_eq_some_iff] at h
  obtain ⟨⟨c, i⟩, hfind, rfl⟩ := h
  have hentry := List.find?_some hfind
  refine ⟨c, ?_, of_decide_eq_true hentry⟩
  exact List.mem_zipIdx_iff_getElem?.1 (List.mem_reverse.1 (List.mem_of_find?_eq_some hfind))

theorem exists_entryChunkOf? {s : ChunkGraph} (hn : s.chunks[n]? = some c)
    (h : c.entry? = some id) : ∃ k, s.entryChunkOf? id = some k := by
  rw [← Option.isSome_iff_exists, entryChunkOf?, Option.isSome_map, List.find?_isSome]
  exact ⟨(c, n), List.mem_reverse.2 (List.mem_zipIdx_iff_getElem?.2 hn), decide_eq_true h⟩

/-- **What an `import()` leads to has a chunk that begins there,** one that
shares how to run its modules. -/
theorem exists_chunk_of_mayAskFor (hg : Loadable around g) (hask : g.MayAskFor id d)
    (hm : g.bundled? d = some m) : ∃ k c, (split g.link false).entryChunkOf? d = some k ∧
      (split g.link false).chunks[k]? = some c ∧ c.entry? = some d ∧
        (split g.link false).Shares k c loadExport := by
  obtain ⟨e, he, rfl⟩ := hg.later id d hask (hm ▸ rfl)
  have hmem : e ∈ chunkEntries g false := List.mem_filter.2 ⟨he, rfl⟩
  obtain ⟨i, hi⟩ := List.getElem?_of_mem hmem
  obtain ⟨c₀, hc₀, hblank⟩ := exists_chunk_of_entry hi
  have hentry₀ : c₀.entry? = some e.id := by
    change Chunk.entry? (blank c₀) = some e.id
    rw [hblank]
    rfl
  obtain ⟨k, hk⟩ := exists_entryChunkOf? hc₀ hentry₀
  obtain ⟨c, hc, hentry⟩ := exists_of_entryChunkOf? hk
  refine ⟨k, c, hk, hc, hentry, shares_of_loadedLater rfl ?_⟩
  have hbundled : (split g.link false).graph.bundled? e.id = some m := hm
  have hid : (g.bundled? id).isSome := by
    obtain ⟨record, hr, -⟩ := hask
    exact bundled_of_mem_requests hr
  rw [isLoadedLater, hentry, Option.bind_some, hbundled, Option.any_some, (hg.keyed _ m hm).1,
    isDynamicTarget, List.any_eq_true]
  refine ⟨id, mem_keys_of_bundled hid, decide_eq_true ?_⟩
  exact mem_dynamicDependencies.2 ⟨hask, isExternal_of_bundled (hm ▸ rfl)⟩

theorem keyOf_of_bundled (hm : g.bundled? d = some m) : g.keyOf d = m.key := by
  rw [keyOf, hm, Option.map_some, Option.getD_some]

/-- **The table of chunks to load later has what modules may ask for,**
unless the key is the name of the prototype. -/
theorem ownProperty_laterMembers (hg : Loadable around g)
    (hd : (d, k) ∈ ((split g.link inlined).linksOf n c).dynamic) (hm : g.bundled? d = some m) :
    ownProperty ((split g.link inlined).laterMembers ((split g.link inlined).linksOf n c)) m.key =
      if m.key = prototypeName then none else some k := by
  refine ownProperty_eq (List.mem_map.2 ⟨(d, k), hd, ?_⟩) fun k' hk' => ?_
  · exact congrArg (·, k) (keyOf_of_bundled hm)
  · obtain ⟨⟨d', k''⟩, hmem, heq⟩ := List.mem_map.1 hk'
    obtain ⟨hkey, rfl⟩ := Prod.mk.inj heq
    obtain ⟨id, -, -, ⟨⟨record, hr, -⟩, hext⟩, hentry'⟩ := mem_dynamic_linksOf.1 hmem
    obtain ⟨m', hm'⟩ | hext' := hg.bundled_or_external hr
    · -- keys are different, so what else is listed under this one is the same module
      obtain rfl : d' = d := hg.key_inj hm' hm ((keyOf_of_bundled hm').symm.trans hkey)
      obtain ⟨-, -, -, -, hentry⟩ := mem_dynamic_linksOf.1 hd
      rw [hentry, Option.some_inj] at hentry'
      exact hentry'.symm
    · exact absurd (hext'.symm.trans hext) (by decide)

/-- What an `import()` comes to where it stays inside its chunk. -/
theorem loadsLater_iff_of_inlined (h : (split g.link true).Registers R n c d m.key)
    (hk : (split g.link true).chunkOf? d = some k) {record : ℕ × String} :
    (split g.link true).LoadsLater R n c m.key record ↔
      m.key ∉ inheritedNames ∧ record = (k, d) := by
  -- nothing is listed, so the table answers to the names of every plain object only
  have hnone : (split g.link true).laterMembers ((split g.link true).linksOf n c) = [] := by
    refine List.eq_nil_iff_forall_not_mem.2 fun member hmember => ?_
    obtain ⟨⟨d', k'⟩, hmem, -⟩ := List.mem_map.1 hmember
    obtain ⟨-, -, hin, -⟩ := mem_dynamic_linksOf.1 hmem
    have hfalse : true = false := hin
    exact absurd hfalse (by decide)
  have hread : readPlain ((split g.link true).laterMembers ((split g.link true).linksOf n c))
      m.key = if m.key ∈ inheritedNames then .inherited else .missing := by
    rw [hnone, readPlain, ownProperty]
    simp
  obtain ⟨k', c', hk', -, -, hrecord⟩ := h.held
  rw [hk, Option.some_inj] at hk'
  subst hk'
  constructor
  · rintro (⟨hmissing, hr⟩ | ⟨hown, -⟩)
    · rw [hread] at hmissing
      split at hmissing
      · exact absurd hmissing (by simp)
      · rename_i hinherited
        have hproto : m.key ≠ prototypeName := fun he => hinherited (by rw [he]; decide)
        rw [hrecord, if_neg hproto, Option.some_inj] at hr
        exact ⟨hinherited, hr.symm⟩
    · rw [hread] at hown
      split at hown <;> exact absurd hown (by simp)
  · rintro ⟨hinherited, rfl⟩
    have hproto : m.key ≠ prototypeName := fun he => hinherited (by rw [he]; decide)
    refine .here ?_ ?_
    · rw [hread, if_neg hinherited]
    · rw [hrecord, if_neg hproto]

/-- What an `import()` comes to where it leaves its chunk. -/
theorem loadsLater_iff_of_listed (hg : Loadable around g) {k' : ℕ}
    (hm : g.bundled? d = some m) (hk : (split g.link false).chunkOf? d = some k)
    (hd : (d, k') ∈ ((split g.link false).linksOf n c).dynamic)
    (hc' : (split g.link false).chunks[k']? = some c')
    (hshares : (split g.link false).Shares k' c' loadExport)
    (h : (split g.link false).Registers R k' c' d m.key) {record : ℕ × String} :
    (split g.link false).LoadsLater R n c m.key record ↔
      m.key ≠ prototypeName ∧ record = (k, d) := by
  have hown := ownProperty_laterMembers hg hd hm
  obtain ⟨l, -, hl, -, -, hrecord⟩ := h.held
  rw [hk, Option.some_inj] at hl
  subst hl
  -- under the name of the prototype the table has an answer of the host, and no chunk is loaded
  by_cases hproto : m.key = prototypeName
  · rw [if_pos hproto] at hown
    have hread : readPlain ((split g.link false).laterMembers
        ((split g.link false).linksOf n c)) m.key = .inherited := by
      rw [readPlain, hown, hproto]
      rfl
    constructor
    · rintro (⟨hmissing, -⟩ | ⟨hlisted, -⟩)
      · exact absurd (hread.symm.trans hmissing) (by simp)
      · exact absurd (hread.symm.trans hlisted) (by simp)
    · rintro ⟨hne, -⟩
      exact absurd hproto hne
  · rw [if_neg hproto] at hown hrecord
    have hread : readPlain ((split g.link false).laterMembers
        ((split g.link false).linksOf n c)) m.key = .own k' := by
      rw [readPlain, hown]
    constructor
    · rintro (⟨hmissing, -⟩ | ⟨hlisted, -, -, hr⟩)
      · exact absurd (hread.symm.trans hmissing) (by simp)
      · obtain rfl : k' = _ := Reading.own.inj (hread.symm.trans hlisted)
        rw [hrecord, Option.some_inj] at hr
        exact ⟨hproto, hr.symm⟩
    · rintro ⟨-, rfl⟩
      exact .there hread hc' hshares hrecord

/-! ## Every chunk serves its modules -/

/-- What a module asks for is registered or in the table of the modules of
the host. -/
theorem serves_now (hg : Loadable around g) (hR : Evaluates (split g.link inlined) R)
    (hn : (split g.link inlined).chunks[n]? = some c) (hid : id ∈ c.modules)
    (hask : g.AsksFor id d) :
    (∃ m, g.bundled? d = some m ∧ (split g.link inlined).Registers R n c d m.key) ∨
      (g.isExternal d ∧ d ∈ ((split g.link inlined).linksOf n c).externals ∧
        ownProperty (hostMembers ((split g.link inlined).linksOf n c)) d =
          if d = prototypeName then none else some d) := by
  have hkind : (∃ m, g.bundled? d = some m) ∨ g.isExternal d := by
    obtain ⟨record, hr, -⟩ := hask
    exact hg.bundled_or_external hr
  rcases hkind with ⟨m, hm⟩ | hext
  · exact Or.inl ⟨m, hm, registers_of_draws hg hR hn hid ⟨hm ▸ rfl, Or.inl hask⟩ hm⟩
  · have hmem : d ∈ ((split g.link inlined).linksOf n c).externals :=
      mem_externals_linksOf.2 ⟨id, hid, hask, hext⟩
    refine Or.inr ⟨hext, hmem, ownProperty_eq (List.mem_map.2 ⟨d, hmem, rfl⟩) fun a ha => ?_⟩
    obtain ⟨d', -, heq⟩ := List.mem_map.1 ha
    obtain ⟨rfl, rfl⟩ := Prod.mk.inj heq
    rfl

/-- What a module may ask for is registered, here or in the chunk that it
is loaded with. -/
theorem serves_later (hg : Loadable around g) (hR : Evaluates (split g.link inlined) R)
    (hn : (split g.link inlined).chunks[n]? = some c) (hid : id ∈ c.modules)
    (hask : g.MayAskFor id d) (hm : g.bundled? d = some m) :
    ∃ k, (split g.link inlined).chunkOf? d = some k ∧
      (if inlined then (split g.link inlined).Registers R n c d m.key
        else ∃ k' c', (d, k') ∈ ((split g.link inlined).linksOf n c).dynamic ∧
          (split g.link inlined).chunks[k']? = some c' ∧
          (split g.link inlined).Shares k' c' loadExport ∧
          (split g.link inlined).Registers R k' c' d m.key) ∧
      ∀ record, (split g.link inlined).LoadsLater R n c m.key record ↔
        m.key ∉ (split g.link inlined).unloadable ∧ record = (k, d) := by
  cases inlined with
  | true =>
    have hreg := registers_of_draws hg hR hn hid ⟨hm ▸ rfl, Or.inr ⟨rfl, hask⟩⟩ hm
    obtain ⟨k, -, hk, -⟩ := hreg.held
    exact ⟨k, hk, hreg, fun _ => loadsLater_iff_of_inlined hreg hk⟩
  | false =>
    obtain ⟨k', c', hentry, hc', hbegins, hshares⟩ := exists_chunk_of_mayAskFor hg hask hm
    have hd : (d, k') ∈ ((split g.link false).linksOf n c).dynamic :=
      mem_dynamic_linksOf.2 ⟨id, hid, rfl, ⟨hask, isExternal_of_bundled (hm ▸ rfl)⟩, hentry⟩
    have hreg := registers_of_entry hg hR hc' hbegins hm
    obtain ⟨k, -, hk, -⟩ := hreg.held
    refine ⟨k, hk, ⟨k', c', hd, hc', hshares, hreg⟩, fun record => ?_⟩
    rw [loadsLater_iff_of_listed hg hm hk hd hc' hshares hreg, unloadable]
    exact and_congr_left fun _ => (not_congr List.mem_singleton).symm

/-- **What modules ask for is served.** The chunks of a program have
registries, and with any that they have, each chunk serves its modules. -/
theorem split_serves (around : Surroundings) (g : Graph) (inlined : Bool)
    (hg : Loadable around g) :
    (∃ R, Evaluates (split g.link inlined) R) ∧
      ∀ R, Evaluates (split g.link inlined) R →
        ∀ n c, (split g.link inlined).chunks[n]? = some c →
          (split g.link inlined).Serves R n c := by
  refine ⟨⟨_, evaluates_registries g inlined⟩, fun R hR n c hn => ?_⟩
  refine ⟨fun id hid d hask => serves_now hg hR hn hid hask, fun id hid d hask => ?_,
    fun e m he hm => registers_of_entry hg hR hn he hm⟩
  have hkind : (∃ m, g.bundled? d = some m) ∨ g.isExternal d := by
    obtain ⟨record, hr, -⟩ := hask
    exact hg.bundled_or_external hr
  rcases hkind with ⟨m, hm⟩ | hext
  · obtain ⟨k, hk, hserved⟩ := serves_later hg hR hn hid hask hm
    exact Or.inr ⟨m, k, hm, hk, hserved⟩
  · exact Or.inl hext

/-- A directory with nothing in it and settings that say nothing. -/
def atRoot : Surroundings where
  files := { entries := .empty, workingPlace := default }
  settings := ({} : Compile.Request).settings ⟨"/"⟩

/-- A page that asks for a file, may ask for it again later, and asks for a
module of the host. -/
def page (file : String) : Graph where
  vertices := .ofList [
    sketch "/main.js" "main.js" [(.statement, "/" ++ file), (.dynamicImport, "/" ++ file),
      (.requireCall, "react")],
    sketch ("/" ++ file) file [],
    ("react", .external)]
  entries := [⟨"/main.js", none, true⟩, ⟨"/" ++ file, none, false⟩]

theorem page_serves : Loadable atRoot (page "late.js") ∧
    ∀ R, Evaluates (split (page "late.js").link false) R →
      ∀ n c, (split (page "late.js").link false).chunks[n]? = some c →
        (split (page "late.js").link false).Serves R n c :=
  have hpage : Loadable atRoot (page "late.js") := by decide
  ⟨hpage, (split_serves atRoot (page "late.js") false hpage).2⟩

/-- **A file named like the prototype is asked for and not found.** -/
theorem page_prototype_not_found : Loadable atRoot (page prototypeName) ∧
    (page prototypeName).AsksFor "/main.js" "/__proto__" ∧
    ((page prototypeName).bundled? "/__proto__").map (·.key) = some prototypeName ∧
    (split (page prototypeName).link false).chunkOf? "/main.js" = some 0 ∧
    ∀ R, Evaluates (split (page prototypeName).link false) R → R 0 prototypeName = none := by
  have hchunk : (split (page prototypeName).link false).chunkOf? "/main.js" = some 0 := by decide +kernel
  refine ⟨by decide, mem_staticTargets.1 (by decide), by decide, hchunk, fun R hR => ?_⟩
  obtain ⟨c, hc, -⟩ := chunkOf?_eq_some_iff.1 hchunk
  exact registry_prototypeName hR hc

end ChunkGraph

end DepBundle
