import DepBundle.Proofs.Chunk.Entries
import DepBundle.Proofs.Graph.Evaluation
/-!
# Chunks — entries that nothing asks for

An entry that no module asks for is reached by itself alone. So it is in its
own chunk and in no other, and with it what no other entry reaches
(`entryBits_of_unasked`). All that it reaches has run before it runs, cycles
below it included, since by then the walk that orders the modules is in the
middle of nothing else. So it is the last module of its chunk
(`modules_of_unasked`).
-/

namespace DepBundle

namespace Graph

open Relation

variable {g : Graph} {inlined : Bool} {a id : String}

/-- No module asks for a module, neither now nor later. -/
def Unasked (g : Graph) (id : String) : Prop := ∀ a record, (record, id) ∉ g.requests a

theorem Unasked.not_asksFor (h : g.Unasked id) : ¬ g.AsksFor a id :=
  fun ⟨record, hrecord, _⟩ => h a record hrecord

theorem Unasked.not_mayAskFor (h : g.Unasked id) : ¬ g.MayAskFor a id :=
  fun ⟨record, hrecord, _⟩ => h a record hrecord

theorem unasked_iff : g.Unasked id ↔
    ∀ a ∈ g.vertices.keys, id ∉ (g.requests a).map (·.2) := by
  constructor
  · intro h a _ hid
    obtain ⟨⟨record, _⟩, hrequest, rfl⟩ := List.mem_map.1 hid
    exact h a record hrequest
  · intro h a record hrequest
    exact h a (mem_keys_of_bundled (bundled_of_mem_requests hrequest))
      (List.mem_map_of_mem (f := (·.2)) hrequest)

instance : Decidable (g.Unasked id) := decidable_of_iff _ unasked_iff.symm

/-- Nothing but the module itself reaches it. -/
theorem Unasked.eq_of_reaches (h : g.Unasked id) (hreaches : g.Reaches inlined a id) : a = id := by
  rcases ReflTransGen.cases_tail hreaches.2 with heq | ⟨b, -, -, hnow | ⟨-, hlater⟩⟩
  · exact heq.symm
  · exact absurd hnow h.not_asksFor
  · exact absurd hlater h.not_mayAskFor

/-- What is drawn in at once is asked for, one module after another. -/
theorem Reaches.asks {b : String} (h : g.Reaches false a b) : ReflTransGen g.AsksFor a b := by
  have hnow : ∀ x y, g.Draws false x y → g.AsksFor x y := fun x y hdraws =>
    hdraws.2.resolve_right fun hlater => Bool.false_ne_true hlater.1
  obtain ⟨-, hdraws⟩ := h
  induction hdraws with
  | refl => exact .refl
  | tail _ hxy ih => exact ih.tail (hnow _ _ hxy)

/-- **An entry that nothing asks for runs after all it reaches.** -/
theorem Unasked.runOrder_eq (h : g.Unasked id) (hentry : ∃ e ∈ g.entries, e.id = id)
    (hid : (g.bundled? id).isSome) :
    ∃ before after, g.runOrder = before ++ id :: after ∧
      ∀ x, g.Reaches false id x → x ∈ before ++ [id] := by
  obtain ⟨e, he, rfl⟩ := hentry
  have hstart : e.id ∈ (g.entries.map (·.id)).filter g.vertices.contains :=
    List.mem_filter.2 ⟨List.mem_map_of_mem he, contains_of_bundled hid⟩
  have hnone : ∀ b, ¬ Leads g.orderNext b e.id := fun b hb =>
    h.not_asksFor (Machine.leads_orderNext.1 hb).1
  obtain ⟨before, after, horder, hdone⟩ := exists_postOrder_eq encloses_orderNext
    (Nat.le_of_eq OrderedMap.length_keys) mem_starts hstart hnone
  exact ⟨before, after, horder, fun x hx =>
    hdone x ((Machine.reflTransGen_orderNext hx.bundled).2 hx.asks)⟩

end Graph

namespace ChunkGraph

open DepBundle.Graph

variable {g : Graph} {asked : List Graph.Entry} {e : Graph.Entry} {k n : ℕ} {c : Chunk}

/-- **What the entries of a program are** where those asked for are different
modules: each is a part of the output, and any others are there because some
`import()` leads to them. -/
structure AskedApart (g : Graph) (asked : List Graph.Entry) : Prop extends AskedFirst g asked where
  nodup : (asked.map (·.id)).Nodup
  later : ∀ e ∈ g.entries, e.isUserDefined = false → ∃ a, g.MayAskFor a e.id

namespace AskedApart

/-- An entry that was asked for has its place among those with chunks. -/
theorem getElem?_chunkEntries (h : AskedApart g asked) (he : asked[k]? = some e) :
    (chunkEntries g false)[k]? = some e := by
  obtain ⟨later, hentries, -⟩ := h.entries
  rw [chunkEntries, hentries, List.filter_eq_self.2 (by simp),
    List.getElem?_append_left (List.getElem?_eq_some_iff.1 he).1, he]

theorem mem_entries (h : AskedApart g asked) (he : e ∈ asked) : e ∈ g.entries := by
  obtain ⟨later, hentries, -⟩ := h.entries
  rw [hentries]
  exact List.mem_append_left _ he

/-- An entry that nothing asks for is the only one of its module. -/
theorem eq_of_unasked (h : AskedApart g asked) (he : asked[k]? = some e) (hid : g.Unasked e.id)
    {b : ℕ} {e' : Graph.Entry} (he' : g.entries[b]? = some e') (heq : e'.id = e.id) : b = k := by
  have huser : e'.isUserDefined = true := by
    by_contra hlater
    obtain ⟨a, ha⟩ := h.later e' (List.mem_of_getElem? he') (Bool.not_eq_true _ ▸ hlater)
    exact hid.not_mayAskFor (heq ▸ ha)
  obtain ⟨later, hentries, hlater⟩ := h.entries
  have hb : b < asked.length := by
    by_contra hge
    rw [hentries, List.getElem?_append_right (Nat.le_of_not_lt hge)] at he'
    rw [hlater e' (List.mem_of_getElem? he')] at huser
    cases huser
  rw [hentries, List.getElem?_append_left hb] at he'
  have hmap : (asked.map (·.id))[b]? = (asked.map (·.id))[k]? := by
    rw [List.getElem?_map, List.getElem?_map, he, he', Option.map_some, Option.map_some, heq]
  exact (List.getElem?_inj (by simpa using hb) h.nodup).1 hmap

/-- **An entry that nothing asks for is reached by itself alone:** its bits
are those of its chunk. -/
theorem entryBits_of_unasked (h : AskedApart g asked) (he : asked[k]? = some e)
    (hid : g.Unasked e.id) :
    ∃ c, (split g.link false).chunks[k]? = some c ∧ c.kind = .entry e.id true ∧
      entryBits g false e.id = c.bits := by
  have hall : chunkEntries g false = g.entries := List.filter_eq_self.2 (by simp)
  have hat := h.getElem?_chunkEntries he
  obtain ⟨c, hc, hblank⟩ := exists_chunk_of_entry hat
  obtain ⟨c', hc', hkind, -⟩ := h.exists_chunk he
  obtain rfl := Option.some.inj (hc.symm.trans hc')
  refine ⟨c, hc, hkind, EntryBits.eq_of_contains ?_ fun b => Bool.eq_iff_iff.2 ?_⟩
  · have hsize : c.bits.bytes.size = (blank c).bits.bytes.size := rfl
    rw [size_entryBits, hsize, hblank, size_entryChunk]
  · rw [contains_entryBits, contains_bits_of_entry hat hblank]
    constructor
    · rintro ⟨e', he', hreaches⟩
      exact h.eq_of_unasked he hid (hall ▸ he') (hid.eq_of_reaches hreaches)
    · rintro rfl
      exact ⟨e, hat, h.bundled e (List.mem_of_getElem? he), .refl⟩

/-- **An entry that nothing asks for is in its own chunk alone, as the last of
its modules.** -/
theorem modules_of_unasked (h : AskedApart g asked) (he : asked[k]? = some e)
    (hid : g.Unasked e.id) (hc : (split g.link false).chunks[n]? = some c)
    (hmem : e.id ∈ c.modules) :
    n = k ∧ c.kind = .entry e.id true ∧ ∃ before, c.modules = before ++ [e.id] := by
  obtain ⟨own, hown, hkind, hbits⟩ := h.entryBits_of_unasked he hid
  have hsplit := List.mem_of_getElem? hc
  have hbits' := bits_eq_of_mem hsplit hmem
  obtain rfl : n = k := eq_of_bits_eq hc hown (hbits'.symm.trans hbits)
  obtain rfl := Option.some.inj (hc.symm.trans hown)
  refine ⟨rfl, hkind, ?_⟩
  have heasked := List.mem_of_getElem? he
  obtain ⟨before, after, horder, hdone⟩ :=
    hid.runOrder_eq ⟨e, h.mem_entries heasked, rfl⟩ (h.bundled e heasked)
  have hnodup : (before ++ e.id :: after).Nodup := horder ▸ nodup_runOrder
  -- what the entry alone reaches stands no later in the order than it does
  have hafter : ∀ x ∈ after, entryBits g false x ≠ c.bits := by
    intro x hx heq
    have hat : (entryBits g false e.id).contains n :=
      contains_entryBits.2 ⟨e, h.getElem?_chunkEntries he, h.bundled e heasked, .refl⟩
    rw [hbits', ← heq, contains_entryBits] at hat
    obtain ⟨e', he', hreaches⟩ := hat
    obtain rfl := Option.some.inj (he'.symm.trans (h.getElem?_chunkEntries he))
    have hbefore := hdone x hreaches
    rw [← List.singleton_append, ← List.append_assoc] at hnodup
    exact List.disjoint_of_nodup_append hnodup hbefore hx
  have hbundled : (g.bundled? e.id).isSome := h.bundled e heasked
  have hmodules : c.modules = ((before ++ e.id :: after).filter fun id =>
      (g.bundled? id).isSome).filter fun id => entryBits g false id = c.bits := by
    rw [← horder]
    exact (placed_split g false).modules c hsplit
  have hnone : after.filter (fun id => decide (entryBits g false id = c.bits) &&
      (g.bundled? id).isSome) = [] :=
    List.filter_eq_nil_iff.2 fun x hx => by simp [hafter x hx]
  rw [List.filter_filter, List.filter_append, List.filter_cons_of_pos (by simp [hbits', hbundled]),
    hnone] at hmodules
  exact ⟨_, hmodules⟩

/-- It is there. -/
theorem exists_mem_modules (h : AskedApart g asked) (he : e ∈ asked) (hid : g.Unasked e.id) :
    ∃ (n : ℕ) (c : Chunk), (split g.link false).chunks[n]? = some c ∧ e.id ∈ c.modules := by
  obtain ⟨k, hk⟩ := List.getElem?_of_mem he
  obtain ⟨c, hc, -, hbits⟩ := h.entryBits_of_unasked hk hid
  have hbundled := h.bundled e he
  have hruns := mem_runOrder_of_entry ⟨e, h.mem_entries he, rfl⟩ (contains_of_bundled hbundled)
  exact ⟨k, c, hc, (mem_modules_iff (List.mem_of_getElem? hc)).2
    ⟨mem_sorted_iff.2 ⟨hruns, hbundled⟩, hbits⟩⟩

/-- **A module that nothing asks for is in a chunk only as an entry** that was
asked for. -/
theorem mem_of_unasked (h : AskedApart g asked) {id : String} (hid : g.Unasked id)
    (hc : c ∈ (split g.link false).chunks) (hmem : id ∈ c.modules) : ∃ e ∈ asked, e.id = id := by
  obtain ⟨e, he, hreaches⟩ := exists_reaches_of_mem hc hmem
  obtain rfl := hid.eq_of_reaches hreaches
  have he := mem_entries_of_mem_chunkEntries he
  obtain ⟨later, hentries, hlater⟩ := h.entries
  rcases List.mem_append.1 (hentries ▸ he) with hasked | hmade
  · exact ⟨e, hasked, rfl⟩
  · obtain ⟨a, ha⟩ := h.later e he (hlater e hmade)
    exact absurd ha hid.not_mayAskFor

end AskedApart

/-! ## In the output -/

namespace Rendering

variable {r : Rendering} {out : Output.Chunk}

/-- The modules of a file are those of its chunk. -/
theorem moduleIds_chunk (hsplit : r.split = ChunkGraph.split g.link false) (hkeyed : g.Keyed)
    (hc : r.split.chunks[n]? = some c) : (r.chunk n c).moduleIds = c.modules := by
  have hgraph : r.split.graph = g := congrArg graph hsplit
  rw [chunk, hgraph]
  refine map_id_filterMap_bundled? hkeyed fun id hid => ?_
  rw [hsplit] at hc
  exact (mem_sorted_iff.1 ((mem_modules_iff (List.mem_of_getElem? hc)).1 hid).1).2

/-- **An entry that nothing asks for is in its own file alone, as the last of
its modules.** -/
theorem moduleIds_of_unasked (hsplit : r.split = ChunkGraph.split g.link false) (hkeyed : g.Keyed)
    (h : AskedApart g asked) (he : e ∈ asked) (hid : g.Unasked e.id)
    (hout : out ∈ Output.chunks r.files) (hmem : e.id ∈ out.moduleIds) :
    out.isStaticEntry ∧ out.entryModule = some e.id ∧
      ∃ before, out.moduleIds = before ++ [e.id] ∧ e.id ∉ before := by
  obtain ⟨n, c, hc, rfl⟩ := mem_chunks_files.1 hout
  have hids := moduleIds_chunk hsplit hkeyed hc
  have hgraph : r.split.graph = g := congrArg graph hsplit
  obtain ⟨k, hk⟩ := List.getElem?_of_mem he
  rw [hsplit] at hc
  obtain ⟨rfl, hkind, before, hbefore⟩ := h.modules_of_unasked hk hid hc (hids ▸ hmem)
  obtain ⟨m, hm⟩ := Option.isSome_iff_exists.1 (h.bundled e he)
  have hlater : g.isDynamicTarget e.id = false := by
    rw [Bool.eq_false_iff, ne_eq, isDynamicTarget_iff (h.bundled e he)]
    rintro ⟨a, ha⟩
    exact hid.not_mayAskFor ha
  have hnodup : (before ++ [e.id]).Nodup := hbefore ▸ nodup_modules (List.mem_of_getElem? hc)
  refine ⟨?_, ?_, before, hids.trans hbefore, fun hin => ?_⟩
  · simp [Output.Chunk.isStaticEntry, chunk, Chunk.isUserDefined, Chunk.entry?, hkind, hgraph, hm,
      hkeyed e.id m hm, hlater]
  · simp [chunk, Chunk.entry?, hkind, hgraph, hm, hkeyed e.id m hm]
  · exact List.disjoint_of_nodup_append hnodup hin (List.mem_singleton_self _)

end Rendering

end ChunkGraph

end DepBundle
