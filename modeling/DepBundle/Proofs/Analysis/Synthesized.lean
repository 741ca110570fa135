import DepBundle.Proofs.Analysis.Artifacts
import DepBundle.Proofs.Analysis.ResolutionMap
import DepBundle.Proofs.Chunk.Last
/-!
# Analysis — modules served from memory come last

What is compiled for dependencies begins at modules served from memory, each
another one, that no module asks for. In the output each is the last module
of its own chunk and in no other (`build_entriesLast`). So the last two
modules of a chunk tell a file to look from wherever the chunk holds one.
-/

namespace DepBundle

namespace Graph

variable {around : Surroundings} {named : List (Option String × Resolved)}

end Graph

namespace Analysis

open DepBundle.Graph DepBundle.ChunkGraph

variable {g : Graph} {entries : List String} {chunks : List Output.Chunk} {request : Compile.Request}
  {t t' : FileTree} {outcome : Compile.Outcome}

/-- **Where entries are** that no module asks for. -/
structure EntriesLast (g : Graph) (entries : List String) (chunks : List Output.Chunk) : Prop where
  /-- Each is in some chunk, -/
  placed : ∀ id ∈ entries, ∃ c ∈ chunks, id ∈ c.moduleIds
  /-- which is its own, and it is the last of the modules there and none else. -/
  last : ∀ c ∈ chunks, ∀ id ∈ c.moduleIds, id ∈ entries → c.isStaticEntry ∧
    c.entryModule = some id ∧ ∃ before, c.moduleIds = before ++ [id] ∧ id ∉ before
  /-- Any other module is there because some module asks for it. -/
  asked : ∀ c ∈ chunks, ∀ id ∈ c.moduleIds, id ∉ entries → ¬ g.Unasked id
  /-- So where no others are served from memory, the last two modules of a chunk
  that holds a file tell one. -/
  concrete : ∀ c ∈ chunks, (∀ id ∈ c.moduleIds, Module.isVirtual id → id ∈ entries) →
    (∃ id ∈ c.moduleIds, ¬ Module.isVirtual id) → ∃ id ∈ c.moduleIds,
      ResolutionMap.concreteModule? c = some id ∧ ¬ Module.isVirtual id

/-- Where modules served from memory are in chunks only as the last, one of
the last two modules is a file. -/
theorem exists_concreteModule? {c : Output.Chunk}
    (hlast : ∀ id ∈ c.moduleIds, Module.isVirtual id →
      ∃ before, c.moduleIds = before ++ [id] ∧ id ∉ before)
    (hfile : ∃ id ∈ c.moduleIds, ¬ Module.isVirtual id) : ∃ id ∈ c.moduleIds,
      ResolutionMap.concreteModule? c = some id ∧ ¬ Module.isVirtual id := by
  obtain ⟨file, hmem, hfile⟩ := hfile
  obtain ⟨before, last, hids⟩ : ∃ before last, c.moduleIds = before ++ [last] :=
    ⟨_, _, (List.dropLast_append_getLast (List.ne_nil_of_mem hmem)).symm⟩
  have hlast' : ∀ id ∈ c.moduleIds, Module.isVirtual id → id = last ∧ last ∉ before := by
    intro id hid hvirtual
    obtain ⟨before', hids', hnot⟩ := hlast id hid hvirtual
    obtain ⟨rfl, heq⟩ := List.append_inj' (hids'.symm.trans hids) rfl
    obtain rfl := List.singleton_inj.1 heq
    exact ⟨rfl, hnot⟩
  by_cases hvirtual : Module.isVirtual last
  · -- the file is before the last module, and so is none served from memory
    have hfront : file ∈ before := by
      rw [hids, List.mem_append, List.mem_singleton] at hmem
      exact hmem.resolve_right fun heq => hfile (heq ▸ hvirtual)
    obtain ⟨front, id, rfl⟩ : ∃ front id, before = front ++ [id] :=
      ⟨_, _, (List.dropLast_append_getLast (List.ne_nil_of_mem hfront)).symm⟩
    have hid : ¬ Module.isVirtual id := by
      intro hid
      obtain ⟨rfl, hnot⟩ := hlast' id (by simp [hids]) hid
      exact hnot (List.mem_append_right _ (List.mem_singleton_self _))
    have hids' : c.moduleIds = front ++ [id, last] := by simp [hids]
    refine ⟨id, by simp [hids], ?_, hid⟩
    exact ResolutionMap.concreteModule?_eq_some_iff.2 (.beforeLast hids' hvirtual hid)
  · refine ⟨last, by simp [hids], ?_, hvirtual⟩
    exact ResolutionMap.concreteModule?_eq_some_iff.2 (.last hids hvirtual)

/-- Entries of which each is another module are last where none is asked for. -/
theorem entriesLast_of_askedApart {r : Rendering} {asked : List Graph.Entry}
    (hsplit : r.split = ChunkGraph.split g.link false) (hkeyed : g.Keyed)
    (hasked : AskedApart g asked) (hunasked : ∀ e ∈ asked, g.Unasked e.id) :
    EntriesLast g (asked.map (·.id)) (Output.chunks r.files) := by
  have hlast : ∀ c ∈ Output.chunks r.files, ∀ e ∈ asked, e.id ∈ c.moduleIds →
      c.isStaticEntry ∧ c.entryModule = some e.id ∧
        ∃ before, c.moduleIds = before ++ [e.id] ∧ e.id ∉ before :=
    fun c hc e he hmem =>
      Rendering.moduleIds_of_unasked hsplit hkeyed hasked he (hunasked e he) hc hmem
  -- what no module asks for is there as an entry
  have hentry : ∀ c ∈ Output.chunks r.files, ∀ id ∈ c.moduleIds, g.Unasked id →
      ∃ e ∈ asked, e.id = id := by
    intro out hout id hmem hid
    obtain ⟨n, c, hc, rfl⟩ := Rendering.mem_chunks_files.1 hout
    rw [Rendering.moduleIds_chunk hsplit hkeyed hc] at hmem
    rw [hsplit] at hc
    exact hasked.mem_of_unasked hid (List.mem_of_getElem? hc) hmem
  refine ⟨fun id hid => ?_, fun c hc id hmem hid => ?_, fun c hc id hmem hid hnone => ?_,
    fun c hc hall => exists_concreteModule? fun id hmem hid => ?_⟩
  · obtain ⟨e, he, rfl⟩ := List.mem_map.1 hid
    obtain ⟨n, c, hc, hmem⟩ := hasked.exists_mem_modules he (hunasked e he)
    rw [← hsplit] at hc
    refine ⟨r.chunk n c, Rendering.mem_chunks_files.2 ⟨n, c, hc, rfl⟩, ?_⟩
    rwa [Rendering.moduleIds_chunk hsplit hkeyed hc]
  · obtain ⟨e, he, rfl⟩ := List.mem_map.1 hid
    exact hlast c hc e he hmem
  · obtain ⟨e, he, rfl⟩ := hentry c hc id hmem hnone
    exact hid (List.mem_map_of_mem he)
  · obtain ⟨e, he, rfl⟩ := List.mem_map.1 (hall id hmem hid)
    exact (hlast c hc e he hmem).2.2

/-- So it is with what is compiled for dependencies, where their artifacts have
different names. -/
theorem optimize_entriesLast {around : Surroundings} {found : Dependencies} {outputDir : Path}
    {o : Optimized} (h : optimize .onFiles around found outputDir t = (.ok o, t'))
    (hsome : (compiled around found outputDir).isEmpty = false)
    (hdistinct : ((compiled around found outputDir).entries.map (·.2.name)).Nodup) :
    ∃ g warnings, Graph.load (optimization around found outputDir t) = .ok (g, warnings) ∧
      ((∀ e ∈ (compiled around found outputDir).entries, g.Unasked (Module.virtualId e.2.name)) →
        EntriesLast g ((compiled around found outputDir).entries.map fun e =>
          Module.virtualId e.2.name) (Output.chunks o.files)) := by
  obtain ⟨-, g, warnings, hload, hfiles⟩ := exists_load_of_optimize h hsome
  refine ⟨g, warnings, hload, fun hunasked => ?_⟩
  obtain ⟨named, hnamed, hprogram⟩ := load_program hload
  obtain rfl := Except.ok.inj (resolveEntries_optimization.symm.trans hnamed)
  have hfirst := askedFirst_of_program hprogram
  rw [entriesOf, List.map_map] at hfirst
  have hids : ((compiled around found outputDir).entries.map entryOf).map (·.id) =
      (compiled around found outputDir).entries.map fun e => Module.virtualId e.2.name := by
    rw [List.map_map]
    rfl
  have hasked : AskedApart g ((compiled around found outputDir).entries.map entryOf) :=
    { toAskedFirst := hfirst
      nodup := by
        rw [hids]
        have := List.Nodup.map (f := Module.virtualId) (fun _ _ => virtualId_inj) hdistinct
        rwa [List.map_map] at this
      later := fun e he => exists_mayAskFor_of_load hload he }
  rw [hfiles, ← hids, generate_eq]
  refine entriesLast_of_askedApart rfl (keyed_of_load hload) hasked fun e he => ?_
  obtain ⟨p, hp, rfl⟩ := List.mem_map.1 he
  exact hunasked p hp

end Analysis

end DepBundle
