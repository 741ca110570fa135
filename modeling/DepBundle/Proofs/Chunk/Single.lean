import DepBundle.Chunk.Render
import DepBundle.Proofs.Chunk.Links
import DepBundle.Proofs.Chunk.Partition
import DepBundle.Proofs.Graph.Exports
/-!
# Chunks — a program in one chunk

Where a program has one entry and `import()` stays inside its chunk, all
that the entry reaches comes into one chunk (`split_single`). What that
chunk says of the modules left to the host is what its modules ask of them:
the names that are read at once (`reads_importedBindings`), and what may be
loaded later (`mem_laterExternals`). All of it together is `Sums`.
-/

namespace DepBundle.ChunkGraph

open DepBundle.Graph

variable {g : Graph} {inlined : Bool} {e : Graph.Entry} {c : Chunk} {id x name : String}

/-! ## The chunk -/

/-- Modules that all go by the set of a chunk come into it. -/
theorem foldl_place {bits : String → EntryBits} (hempty : c.bits.isEmpty = false)
    {ids : List String} (hbits : ∀ id ∈ ids, bits id = c.bits) :
    ids.foldl (fun chunks id =>
        if (bits id).isEmpty then chunks else place (bits id) id chunks) [c] =
      [{ c with modules := c.modules ++ ids }] := by
  induction ids generalizing c with
  | nil => simp
  | cons id ids ih =>
    have hid := hbits id (List.mem_cons_self ..)
    have hplace : (if (bits id).isEmpty then [c] else place (bits id) id [c]) =
        [{ c with modules := c.modules ++ [id] }] := by
      rw [hid, hempty, place, if_pos rfl]
      rfl
    have hmore := ih (c := { c with modules := c.modules ++ [id] }) hempty
      fun id hid => hbits id (List.mem_cons_of_mem _ hid)
    rw [List.foldl_cons, hplace, hmore, List.append_assoc, List.singleton_append]

/-- **A program with one entry that reaches all of it is one chunk.** -/
theorem split_single (he : chunkEntries g inlined = [e])
    (hall : ∀ id, (g.bundled? id).isSome → g.Reaches inlined e.id id) :
    (split g.link inlined).chunks = [{ entryChunk 1 0 e with modules := g.link.sorted }] := by
  have hcontains : ∀ b, (entryChunk 1 0 e).bits.contains b ↔ b = 0 :=
    fun b => contains_entryChunk Nat.zero_lt_one
  have hempty : (entryChunk 1 0 e).bits.isEmpty = false := by
    rw [← Bool.not_eq_true, EntryBits.isEmpty_iff]
    intro hnone
    have hzero := (hcontains 0).2 rfl
    rw [hnone] at hzero
    cases hzero
  -- each module is reached by the first entry, and there is no other
  have hbits : ∀ id ∈ g.link.sorted, entryBits g inlined id = (entryChunk 1 0 e).bits := by
    intro id hid
    refine EntryBits.eq_of_contains ?_ fun b => ?_
    · rw [size_entryBits, size_entryChunk, he]
      rfl
    · rw [Bool.eq_iff_iff, contains_entryBits, hcontains, he]
      constructor
      · rintro ⟨e', he', -⟩
        exact Nat.lt_one_iff.1 (List.getElem?_eq_some_iff.1 he').1
      · rintro rfl
        exact ⟨e, rfl, hall id (mem_sorted_iff.1 hid).2⟩
  have hfold := foldl_place hempty hbits
  have hsplit : (split g.link inlined).chunks = g.link.sorted.foldl (fun chunks id =>
      if (entryBits g inlined id).isEmpty then chunks else place (entryBits g inlined id) id chunks)
      (entryChunks g inlined) := rfl
  rw [hsplit, entryChunks, he]
  exact hfold

namespace Rendering

variable {r : Rendering}

/-- The outputs of code are the chunks in order. -/
theorem chunks_files : Output.chunks r.files = r.split.order.filterMap fun number =>
    (r.split.chunks[number]?).map (r.chunk number) := by
  have hassets : ∀ assets : List (String × ByteArray), (assets.map fun asset =>
      Output.File.asset ⟨r.names.ofAsset asset.1, asset.2⟩).filterMap Output.File.chunk? = [] := by
    intro assets
    rw [List.filterMap_map, List.filterMap_eq_nil_iff]
    exact fun _ _ => rfl
  rw [Output.chunks, files, List.filterMap_append, hassets, List.append_nil,
    List.filterMap_filterMap]
  refine List.filterMap_congr fun number _ => ?_
  cases r.split.chunks[number]? <;> rfl

/-- The one chunk is the one output of code. -/
theorem chunks_files_of_single (h : r.split.chunks = [c]) :
    Output.chunks r.files = [r.chunk 0 c] := by
  have horder : r.split.order = [0] := by
    have hperm := order_perm r.split
    rw [h] at hperm
    exact List.perm_singleton.1 hperm
  rw [chunks_files, horder, h]
  rfl

end Rendering

/-! ## What it says of the modules left to the host -/

/-- A table of names by module, with one name more read from a module, and
so on. -/
abbrev Names := OrderedMap String (OrderedSet String)

/-- Whether a table has a name for a module. -/
def Reads (names : Names) (x name : String) : Prop := name ∈ (names.get? x).getD .empty

theorem not_reads_empty : ¬ Reads .empty x name := List.not_mem_nil

theorem reads_modify {names : Names} {target : String} {more : List String} :
    Reads (names.modify target .empty (·.insertMany more)) x name ↔
      Reads names x name ∨ target = x ∧ name ∈ more := by
  rw [Reads, Reads, OrderedMap.get?_modify]
  by_cases hx : x = target
  · rw [if_pos hx, hx, Option.getD_some, OrderedSet.mem_insertMany, or_comm]
    simp
  · rw [if_neg hx, or_iff_left]
    exact fun h => hx h.1.symm

/-- The table with what a request reads at once. -/
def readNow (g : Graph) (names : Names) (request : Module.Record × String) : Names :=
  if request.1.kind.isStatic && g.isExternal request.2 then
    names.modify request.2 .empty (·.insertMany request.1.form.usedNames)
  else names

theorem externalBindings_eq :
    g.externalBindings id = (g.requests id).foldl (readNow g) .empty := rfl

/-- A request that a module makes at once of one left to the host. -/
structure ReadsFrom (g : Graph) (id x : String) (record : Module.Record) : Prop where
  request : (record, x) ∈ g.requests id
  atOnce : record.kind.isStatic
  external : g.isExternal x

theorem exists_readsFrom_iff {P : Module.Record → Prop} :
    (∃ record, ReadsFrom g id x record ∧ P record) ↔ ∃ request ∈ g.requests id,
      (request.1.kind.isStatic ∧ g.isExternal request.2) ∧ request.2 = x ∧ P request.1 := by
  constructor
  · rintro ⟨record, ⟨hrequest, hstatic, hexternal⟩, hP⟩
    exact ⟨(record, x), hrequest, ⟨hstatic, hexternal⟩, rfl, hP⟩
  · rintro ⟨⟨record, _⟩, hrequest, ⟨hstatic, hexternal⟩, rfl, hP⟩
    exact ⟨record, ⟨hrequest, hstatic, hexternal⟩, hP⟩

theorem contains_readNow (g : Graph) (names : Names) (request : Module.Record × String) :
    (readNow g names request).contains x ↔ names.contains x ∨
      (request.1.kind.isStatic ∧ g.isExternal request.2) ∧ request.2 = x := by
  rw [readNow]
  split_ifs with h <;> rw [Bool.and_eq_true] at h
  · rw [OrderedMap.contains_modify, or_comm, eq_comm (a := x)]
    simp [h]
  · simp [h]

theorem reads_readNow (g : Graph) (names : Names) (request : Module.Record × String) :
    Reads (readNow g names request) x name ↔ Reads names x name ∨
      (request.1.kind.isStatic ∧ g.isExternal request.2) ∧ request.2 = x ∧
        name ∈ request.1.form.usedNames := by
  rw [readNow]
  split_ifs with h <;> rw [Bool.and_eq_true] at h
  · rw [reads_modify]
    simp [h]
  · simp [h]

theorem contains_externalBindings :
    (g.externalBindings id).contains x ↔ ∃ record, ReadsFrom g id x record := by
  have hfold := foldl_iff (P := fun names : Names => names.contains x) (contains_readNow g)
    (g.requests id) .empty
  have hreads : (∃ record, ReadsFrom g id x record ∧ True) ↔ _ := exists_readsFrom_iff
  simp only [and_true] at hreads
  rw [externalBindings_eq, hfold, or_iff_right (by simp [OrderedMap.contains]), hreads]

theorem reads_externalBindings : Reads (g.externalBindings id) x name ↔
    ∃ record, ReadsFrom g id x record ∧ name ∈ record.form.usedNames := by
  have hfold := foldl_iff (P := fun names : Names => Reads names x name) (reads_readNow g)
    (g.requests id) .empty
  rw [externalBindings_eq, hfold, or_iff_right not_reads_empty, exists_readsFrom_iff]

/-- Two tables put together. -/
def join (names more : Names) : Names :=
  more.entries.foldl (fun all e => all.modify e.1 .empty (·.insertMany e.2.toList)) names

theorem contains_join (names more : Names) :
    (join names more).contains x ↔ names.contains x ∨ more.contains x := by
  have hfold := foldl_iff (P := fun names : Names => names.contains x)
    (f := fun all (e : String × OrderedSet String) =>
      all.modify e.1 .empty (·.insertMany e.2.toList))
    (Q := fun e => e.1 = x)
    (fun all e => by rw [OrderedMap.contains_modify, or_comm, eq_comm (a := x)]) more.entries names
  rw [join, hfold, OrderedMap.contains_iff_mem_keys (m := more), OrderedMap.keys, List.mem_map]

theorem reads_iff_mem_entries (names : Names) :
    Reads names x name ↔ ∃ e ∈ names.entries, e.1 = x ∧ name ∈ e.2.toList := by
  rw [Reads]
  constructor
  · intro hname
    cases hget : names.get? x with
    | none =>
      rw [hget] at hname
      exact absurd hname List.not_mem_nil
    | some own =>
      rw [hget] at hname
      exact ⟨(x, own), OrderedMap.get?_eq_some_iff.1 hget, rfl, hname⟩
  · rintro ⟨⟨_, own⟩, he, rfl, hname⟩
    rw [OrderedMap.get?_eq_some_iff.2 he]
    exact hname

theorem reads_join (names more : Names) :
    Reads (join names more) x name ↔ Reads names x name ∨ Reads more x name := by
  have hfold := foldl_iff (P := fun names : Names => Reads names x name)
    (f := fun all (e : String × OrderedSet String) =>
      all.modify e.1 .empty (·.insertMany e.2.toList))
    (Q := fun e => e.1 = x ∧ name ∈ e.2.toList) (fun all e => reads_modify) more.entries names
  rw [join, hfold, reads_iff_mem_entries more]

namespace Rendering

variable {r : Rendering} {modules : List Bundled}

theorem importedBindings_eq : r.importedBindings modules =
    modules.foldl (fun all m => join all (r.split.graph.externalBindings m.id)) .empty := rfl

/-- **What modules read at once** is what each of them does. -/
theorem contains_importedBindings : (r.importedBindings modules).contains x ↔
    ∃ m ∈ modules, ∃ record, ReadsFrom r.split.graph m.id x record := by
  have hfold := foldl_iff (P := fun names : Names => names.contains x)
    (fun names m => contains_join names (r.split.graph.externalBindings m.id)) modules .empty
  rw [importedBindings_eq, hfold, or_iff_right (by simp [OrderedMap.contains])]
  simp only [contains_externalBindings]

theorem reads_importedBindings : Reads (r.importedBindings modules) x name ↔
    ∃ m ∈ modules, ∃ record, ReadsFrom r.split.graph m.id x record ∧
      name ∈ record.form.usedNames := by
  have hfold := foldl_iff (P := fun names : Names => Reads names x name)
    (fun names m => reads_join names (r.split.graph.externalBindings m.id)) modules .empty
  rw [importedBindings_eq, hfold, or_iff_right not_reads_empty]
  simp only [reads_externalBindings]

theorem mem_laterExternals : x ∈ r.laterExternals modules ↔
    ∃ m ∈ modules, ∃ record, (record, x) ∈ r.split.graph.requests m.id ∧
      record.kind = .dynamicImport ∧ r.split.graph.isExternal x := by
  simp [laterExternals, and_assoc]

end Rendering

/-! ## The output -/

/-- **What the one output of code says of a program** that begins at a
module. -/
structure Sums (g : Graph) (start : String) (c : Output.Chunk) : Prop where
  isEntry : c.isEntry
  /-- It counts as loaded later where some `import()` leads to the beginning,
  though no `import()` leaves the chunk. -/
  isDynamicEntry : c.isDynamicEntry = g.isDynamicTarget start
  /-- It has all the modules of the program, each once. -/
  nodup : c.moduleIds.Nodup
  mem_moduleIds : ∀ id, id ∈ c.moduleIds ↔ (g.bundled? id).isSome
  /-- It lists the modules left to the host that are read at once, also those
  nothing is read from, -/
  contains : ∀ x, c.importedBindings.contains x ↔ ∃ id record, ReadsFrom g id x record
  /-- with the names that are read, -/
  names : ∀ x listed, c.importedBindings.get? x = some listed → ∀ name, name ∈ listed ↔
    ∃ id record, ReadsFrom g id x record ∧ name ∈ record.form.usedNames
  /-- and those that may be loaded later. -/
  later : ∀ x, x ∈ c.dynamicImports ↔
    ∃ id record, (record, x) ∈ g.requests id ∧ record.kind = .dynamicImport ∧ g.isExternal x

/-- Modules go by their ids. -/
theorem map_id_filterMap_bundled? (hkeyed : g.Keyed) {ids : List String}
    (hids : ∀ id ∈ ids, (g.bundled? id).isSome) : (ids.filterMap g.bundled?).map (·.id) = ids := by
  induction ids with
  | nil => rfl
  | cons id ids ih =>
    obtain ⟨m, hm⟩ := Option.isSome_iff_exists.1 (hids id (List.mem_cons_self ..))
    rw [List.filterMap_cons_some hm, List.map_cons, hkeyed id m hm,
      ih fun id hid => hids id (List.mem_cons_of_mem _ hid)]

/-- Only the modules of a program ask for anything. -/
theorem exists_mem_modules_iff (hkeyed : g.Keyed) {ids : List String}
    (hids : ∀ id, id ∈ ids ↔ (g.bundled? id).isSome) (P : String → Module.Record → Prop)
    (hP : ∀ {id record}, P id record → (record, x) ∈ g.requests id) :
    (∃ m ∈ ids.filterMap g.bundled?, ∃ record, P m.id record) ↔ ∃ id record, P id record := by
  constructor
  · rintro ⟨m, -, record, h⟩
    exact ⟨m.id, record, h⟩
  · rintro ⟨id, record, h⟩
    have hthere := bundled_of_mem_requests (hP h)
    obtain ⟨m, hm⟩ := Option.isSome_iff_exists.1 hthere
    refine ⟨m, List.mem_filterMap.2 ⟨id, (hids id).2 hthere, hm⟩, record, ?_⟩
    rwa [hkeyed id m hm]

namespace Rendering

variable {r : Rendering}

/-- A table goes into an output with a list for each of its sets. -/
theorem get?_listed (names : Names) : (OrderedMap.ofList (names.entries.map fun (id, listed) =>
    (id, listed.toList))).get? x = (names.get? x).map OrderedSet.toList := by
  have hkeys : ((names.entries.map fun (id, listed) => (id, listed.toList)).map
      Prod.fst).Nodup := by
    simpa [Function.comp_def] using names.nodup
  rw [OrderedMap.get?_ofList hkeys]
  exact OrderedMap.lookup_map (fun _ listed => listed.toList) names.entries

/-- Where `import()` stays inside, only modules left to the host are loaded
later. -/
theorem mem_dynamicImports (hin : r.split.inlined) {number : ℕ} :
    x ∈ (r.chunk number c).dynamicImports ↔
      x ∈ r.laterExternals (c.modules.filterMap r.split.graph.bundled?) := by
  have hnone : (r.split.linksOf number c).dynamic.toList = [] := by
    refine List.eq_nil_iff_forall_not_mem.2 fun ⟨id, k⟩ hmem => ?_
    obtain ⟨-, -, hout, -⟩ := mem_dynamic_linksOf.1 hmem
    rw [hin] at hout
    cases hout
  have hlist : (r.chunk number c).dynamicImports = (OrderedSet.ofList
      ((r.split.linksOf number c).dynamic.toList.map (fun p => r.names.ofChunk p.2) ++
        r.laterExternals (c.modules.filterMap r.split.graph.bundled?))).toList := rfl
  rw [hlist, hnone]
  exact OrderedSet.mem_ofList

/-- **A chunk with all the modules of a program sums it up.** -/
theorem sums_chunk (hgraph : r.split.graph = g) (hin : r.split.inlined) (hkeyed : g.Keyed)
    {start : String} (hentry : c.entry? = some start) (huser : c.isUserDefined)
    (hstart : (g.bundled? start).isSome) (hnodup : c.modules.Nodup)
    (hall : ∀ id, id ∈ c.modules ↔ (g.bundled? id).isSome) : Sums g start (r.chunk 0 c) := by
  subst hgraph
  have hids : (r.chunk 0 c).moduleIds = c.modules :=
    map_id_filterMap_bundled? hkeyed fun id hid => (hall id).1 hid
  have hget : ∀ x, (r.chunk 0 c).importedBindings.get? x =
      ((r.importedBindings (c.modules.filterMap r.split.graph.bundled?)).get? x).map
        OrderedSet.toList := fun x => get?_listed _
  refine
    { isEntry := huser
      isDynamicEntry := ?_
      nodup := hids ▸ hnodup
      mem_moduleIds := hids ▸ hall
      contains := fun x => ?_
      names := fun x listed hlisted name => ?_
      later := fun x => ?_ }
  · obtain ⟨m, hm⟩ := Option.isSome_iff_exists.1 hstart
    change (c.entry?.bind r.split.graph.bundled?).any _ = _
    rw [hentry, Option.bind_some, hm, Option.any_some, hkeyed start m hm]
  · rw [OrderedMap.contains, hget, Option.isSome_map]
    exact contains_importedBindings.trans
      (exists_mem_modules_iff hkeyed hall _ ReadsFrom.request)
  · rw [hget, Option.map_eq_some_iff] at hlisted
    obtain ⟨own, hown, rfl⟩ := hlisted
    have hreads : name ∈ own.toList ↔
        Reads (r.importedBindings (c.modules.filterMap r.split.graph.bundled?)) x name := by
      rw [Reads, hown]
      rfl
    rw [hreads, reads_importedBindings]
    exact exists_mem_modules_iff hkeyed hall
      (fun id record => ReadsFrom r.split.graph id x record ∧ name ∈ record.form.usedNames)
      fun h => h.1.request
  · rw [mem_dynamicImports hin, mem_laterExternals]
    exact exists_mem_modules_iff hkeyed hall (fun id record =>
      (record, x) ∈ r.split.graph.requests id ∧ record.kind = .dynamicImport ∧
        r.split.graph.isExternal x) fun h => h.1

/-- **The one chunk sums up the program.** -/
theorem sums (hr : r.split = ChunkGraph.split g.link true) (hkeyed : g.Keyed)
    (he : chunkEntries g true = [e]) (huser : e.isUserDefined) (hentry : (g.bundled? e.id).isSome)
    (hall : ∀ id, (g.bundled? id).isSome → id ∈ g.runOrder ∧ g.Reaches true e.id id) :
    ∃ c, Output.chunks r.files = [c] ∧ Sums g e.id c := by
  have hchunks : r.split.chunks = [{ entryChunk 1 0 e with modules := g.link.sorted }] :=
    hr ▸ split_single he fun id hid => (hall id hid).2
  refine ⟨_, chunks_files_of_single hchunks, sums_chunk (by rw [hr]; rfl) (by rw [hr]; rfl) hkeyed
    rfl huser hentry (nodup_runOrder.filter _) fun id => ?_⟩
  exact mem_sorted_iff.trans (and_iff_right_of_imp fun hid => (hall id hid).1)

end Rendering

end DepBundle.ChunkGraph
