import DepBundle.Analysis.Entry
import DepBundle.Proofs.Chunk.Single
import DepBundle.Proofs.Graph.Program
/-!
# Analysis — compiling an entry

An entry is compiled as a program of its own, with every `import()` inside.
So all that is loaded comes into one chunk, which sums it up
(`compiled_of_build`). The analysis looks for a chunk that nothing loads
later; what it answers therefore depends on whether some module may load the
entry (`Compiled.answered`), though no other chunk is there to load it from.
-/

namespace DepBundle.Analysis

open DepBundle.Graph DepBundle.ChunkGraph

variable {s : Settings} {around : Surroundings} {entry : Entry} {t t' : FileTree} {g : Graph}
  {c : Output.Chunk}

/-! ## Compiling an entry -/

/-- What is compiled is a program that was loaded. -/
theorem exists_load_of_outcome {settings : Compile.Settings} {outcome : Compile.Outcome}
    (h : Compile.outcome t settings = .ok outcome) :
    ∃ g warnings, Graph.load ⟨t, settings⟩ = .ok (g, warnings) ∧
      outcome.files = Compile.generate t.workingDirectory settings g.link := by
  rw [Compile.outcome] at h
  cases hload : Graph.load ⟨t, settings⟩ with
  | error failures =>
    rw [hload] at h
    cases h
  | ok p =>
    rw [hload] at h
    obtain rfl := Except.ok.inj h
    exact ⟨p.1, p.2, rfl, rfl⟩

/-- What an entry is compiled as. -/
def Entry.specifier (s : Settings) : Entry → String
  | file path => (s.cwd.join path).text
  | inline id _ => Module.virtualId id

/-- What compiling an entry goes by. -/
def Entry.settings (s : Settings) (entry : Entry) (t : FileTree) : Compile.Settings :=
  (entry.request s).settings t.workingDirectory

theorem input_settings : (entry.settings s t).input = [⟨some "entry", entry.specifier s⟩] := by
  cases entry <;> rfl

/-- Source in memory stands for itself. -/
theorem ofSpecifier_inline {id source : String} : Resolved.ofSpecifier t
    ((Entry.inline id source).settings s t) (Module.virtualId id) none .statement true =
      .ok { id := Module.virtualId id } := by
  have hserved : ((Entry.inline id source).settings s t).virtualModules =
      OrderedMap.empty.insert (Module.virtualId id) source := rfl
  rw [Resolved.ofSpecifier, hserved, if_pos]
  rw [OrderedMap.contains, OrderedMap.get?_insert, if_pos rfl]
  rfl

/-- A request that asks for nothing to be written leaves the files alone. -/
theorem build_of_not_write {request : Compile.Request}
    (hwrite : (request.settings t.workingDirectory).write = false) :
    Compile.build request t = (Compile.outcome t (request.settings t.workingDirectory), t) := by
  rw [Compile.build]
  cases Compile.outcome t (request.settings t.workingDirectory) with
  | error failures => rfl
  | ok outcome => simp only [hwrite, Bool.false_eq_true, if_false]

/-- Compiling an entry writes nothing. -/
theorem build_request : Compile.build (entry.request s) t =
    (Compile.outcome t (entry.settings s t), t) := build_of_not_write rfl

/-- **What compiling an entry comes to:** one chunk, which sums up what the
entry reaches. -/
structure Compiled (s : Settings) (entry : Entry) (t : FileTree) (files : List Output.File)
    (g : Graph) (r : Resolved) (c : Output.Chunk) : Prop where
  /-- The program is what is loaded from there. -/
  load : ∃ warnings, Graph.load ⟨t, entry.settings s t⟩ = .ok (g, warnings)
  program : Program ⟨t, entry.settings s t⟩ [(some "entry", r)] g
  /-- It begins at what the entry stands for. -/
  start : Resolved.ofSpecifier t (entry.settings s t) (entry.specifier s) none .statement true =
    .ok r
  chunks : Output.chunks files = [c]
  sums : Sums g r.id c

theorem compiled_of_load {warnings : List Compile.Warning}
    (h : Graph.load ⟨t, entry.settings s t⟩ = .ok (g, warnings)) : ∃ r c, Compiled s entry t
      (Compile.generate t.workingDirectory (entry.settings s t) g.link) g r c := by
  obtain ⟨named, hnamed, hprogram⟩ := load_program h
  obtain ⟨r, rfl, hstart, -⟩ := resolveEntries_single input_settings hnamed
  have hentry := hprogram.entry ⟨r.id, some "entry", true⟩ (List.mem_singleton_self _)
  have hall : ∀ id, (g.bundled? id).isSome → id ∈ g.runOrder ∧ g.Reaches true r.id id := by
    intro id hid
    obtain ⟨e, he, hreaches⟩ := hprogram.reached id hid
    obtain rfl := List.mem_singleton.1 he
    exact ⟨hprogram.runs id hid, hreaches⟩
  obtain ⟨c, hchunks, hsums⟩ := Rendering.sums (g := g)
    (r := ⟨split g.link true, (split g.link true).fileNames (entry.settings s t),
      t.workingDirectory⟩) rfl (keyed_of_load h) hprogram.chunkEntries rfl hentry hall
  exact ⟨r, c, ⟨_, h⟩, hprogram, hstart, hchunks, hsums⟩

theorem compiled_of_build {outcome : Compile.Outcome}
    (h : Compile.build (entry.request s) t = (.ok outcome, t')) :
    t' = t ∧ ∃ g r c, Compiled s entry t outcome.files g r c := by
  rw [build_request] at h
  obtain ⟨houtcome, rfl⟩ := Prod.mk.inj h
  obtain ⟨g, warnings, hload, hfiles⟩ := exists_load_of_outcome houtcome
  obtain ⟨r, c, hcompiled⟩ := compiled_of_load hload
  exact ⟨rfl, g, r, c, hfiles ▸ hcompiled⟩

/-- An entry that loads compiles. -/
theorem exists_build_of_load {p : Graph × List Compile.Warning}
    (h : Graph.load ⟨t, entry.settings s t⟩ = .ok p) :
    ∃ outcome, Compile.build (entry.request s) t = (.ok outcome, t) := by
  rw [build_request, Compile.outcome, h]
  exact ⟨_, rfl⟩

/-! ## The chunk of the entry -/

/-- The chunk is found exactly where nothing may load the entry later. -/
theorem Compiled.isStaticEntry_iff {files : List Output.File} {r : Resolved}
    (h : Compiled s entry t files g r c) : c.isStaticEntry ↔ ¬ ∃ id, g.MayAskFor id r.id := by
  have hentry := h.program.entry ⟨r.id, some "entry", true⟩ (List.mem_singleton_self _)
  rw [Output.Chunk.isStaticEntry, h.sums.isEntry, h.sums.isDynamicEntry, Bool.true_and,
    Bool.not_eq_true', ← Bool.not_eq_true, isDynamicTarget_iff hentry]

/-- What analyzing an entry comes to, by its chunk. -/
theorem analyze_eq {outcome : Compile.Outcome}
    (h : Compile.build (entry.request around.settings) t = (.ok outcome, t'))
    (hchunks : Output.chunks outcome.files = [c]) :
    entry.analyze .onFiles around t =
      if c.isStaticEntry then (.ok ⟨dependenciesOf around entry c, c.code⟩, t')
      else (.error [.noEntryChunk entry.shown], t') := by
  have hcompile : Compile.Compiler.onFiles.compile (entry.request around.settings) t =
      (.ok outcome, t') := h
  simp only [Entry.analyze, hcompile, hchunks, List.find?_cons, List.find?_nil]
  cases c.isStaticEntry <;> rfl

/-- An entry that is analyzed is compiled into one chunk, and the analysis is
what that says. -/
theorem exists_compiled_of_analyze {analysis : EntryAnalysis}
    (h : entry.analyze .onFiles around t = (.ok analysis, t')) : t' = t ∧ ∃ files g r c,
      Compiled around.settings entry t files g r c ∧
        analysis = ⟨dependenciesOf around entry c, c.code⟩ := by
  cases hbuild : Compile.build (entry.request around.settings) t with
  | mk result after =>
    cases result with
    | error failures =>
      have hcompile : Compile.Compiler.onFiles.compile (entry.request around.settings) t =
        (.error failures, after) := hbuild
      simp [Entry.analyze, hcompile] at h
    | ok outcome =>
      obtain ⟨rfl, g, r, c, hcompiled⟩ := compiled_of_build hbuild
      rw [analyze_eq hbuild hcompiled.chunks] at h
      split at h
      · obtain ⟨hanalysis, rfl⟩ := Prod.mk.inj h
        exact ⟨rfl, outcome.files, g, r, c, hcompiled, (Except.ok.inj hanalysis).symm⟩
      · cases (Prod.mk.inj h).1

/-- Entries that are analyzed one after another are analyzed each. -/
theorem exists_analyze_of_analyzeAll {World : Type} {compiler : Compile.Compiler World}
    {entries : List Entry} {known found : Dependencies} {w w' : World}
    (h : analyzeAll compiler around (entry :: entries) known w = (.ok found, w')) :
    ∃ analysis after, entry.analyze compiler around w = (.ok analysis, after) ∧
      analyzeAll compiler around entries (known.merge analysis.dependencies) after =
        (.ok found, w') := by
  rw [analyzeAll] at h
  revert h
  rcases entry.analyze compiler around w with ⟨failures | analysis, after⟩
  · intro h
    cases (Prod.mk.inj h).1
  · exact fun h => ⟨analysis, after, rfl, h⟩

/-- **What is answered where an entry compiles.** -/
structure Answered (around : Surroundings) (entry : Entry) (t : FileTree) (files : List Output.File)
    (g : Graph) (r : Resolved) : Prop where
  /-- The graph is that of the program, -/
  load : ∃ warnings, Graph.load ⟨t, entry.settings around.settings t⟩ = .ok (g, warnings)
  /-- which begins at what the entry stands for. -/
  start : Resolved.ofSpecifier t (entry.settings around.settings t)
    (entry.specifier around.settings) none .statement true = .ok r
  /-- There is one chunk, and it is an entry's, -/
  single : ∃ c, Output.chunks files = [c] ∧ c.isEntry
  /-- but one that nothing loads later only where no module may load the entry
  later. What modules ask for at once does not matter. -/
  static_iff : (∃ c ∈ Output.chunks files, c.isStaticEntry) ↔ ¬ ∃ id, g.MayAskFor id r.id
  /-- There the entry is analyzed, -/
  succeeds : (¬ ∃ id, g.MayAskFor id r.id) →
    ∃ analysis, entry.analyze .onFiles around t = (.ok analysis, t)
  /-- and everywhere else it is said to have no chunk. -/
  fails : (∃ id, g.MayAskFor id r.id) →
    entry.analyze .onFiles around t = (.error [.noEntryChunk entry.shown], t)

theorem Compiled.answered {outcome : Compile.Outcome} {r : Resolved}
    (h : Compiled around.settings entry t outcome.files g r c)
    (hbuild : Compile.build (entry.request around.settings) t = (.ok outcome, t)) :
    Answered around entry t outcome.files g r where
  load := h.load
  start := h.start
  single := ⟨c, h.chunks, h.sums.isEntry⟩
  static_iff := by
    rw [h.chunks, ← h.isStaticEntry_iff]
    simp
  succeeds hnone := by
    rw [analyze_eq hbuild h.chunks, if_pos (h.isStaticEntry_iff.2 hnone)]
    exact ⟨_, rfl⟩
  fails hsome := by
    rw [analyze_eq hbuild h.chunks, if_neg fun hstatic => h.isStaticEntry_iff.1 hstatic hsome]

/-- **An entry that compiles is analyzed where no module may load it later,**
and nowhere else. -/
theorem analyze_of_build {outcome : Compile.Outcome}
    (h : Compile.build (entry.request around.settings) t = (.ok outcome, t')) :
    t' = t ∧ ∃ g r, Answered around entry t outcome.files g r := by
  obtain ⟨rfl, g, r, c, hcompiled⟩ := compiled_of_build h
  exact ⟨rfl, g, r, hcompiled.answered h⟩

/-! ## Entries that are come back to -/

/-- Where nothing is installed. -/
def nowhere : Surroundings where
  settings := ({} : Options).settings ⟨"/work"⟩
  files := ⟨.empty, ["work"]⟩
  members := .empty

/-- Whether an entry loads, and whether its module is then loaded later. -/
def isComeBackTo? (around : Surroundings) (entry : Entry) : Option Bool :=
  (Graph.load ⟨around.files, entry.settings around.settings around.files⟩).toOption.map fun p =>
    p.1.isDynamicTarget (entry.specifier around.settings)

/-- Source in memory that loads compiles, and has the chunk of an entry
where it is not come back to. -/
theorem compiled_inline {id source : String} {b : Bool}
    (h : isComeBackTo? around (.inline id source) = some b) : ∃ outcome g c,
      Compile.build ((Entry.inline id source).request around.settings) around.files =
        (.ok outcome, around.files) ∧
      Compiled around.settings (.inline id source) around.files outcome.files g
        { id := Module.virtualId id } c ∧ c.isStaticEntry = !b := by
  obtain ⟨p, hload, rfl⟩ := Option.map_eq_some_iff.1 h
  have hload : Graph.load ⟨around.files,
      (Entry.inline id source).settings around.settings around.files⟩ = .ok p := by
    revert hload
    cases Graph.load ⟨around.files, _⟩ with
    | error failures => nofun
    | ok p' => exact fun hload => congrArg Except.ok (Option.some.inj hload)
  obtain ⟨outcome, hbuild⟩ := exists_build_of_load hload
  obtain ⟨-, g, r, c, hcompiled⟩ := compiled_of_build hbuild
  obtain ⟨warnings, hload'⟩ := hcompiled.load
  obtain rfl := Except.ok.inj (hload.symm.trans hload')
  obtain rfl := Except.ok.inj (hcompiled.start.symm.trans ofSpecifier_inline)
  refine ⟨outcome, g, c, hbuild, hcompiled, ?_⟩
  rw [Output.Chunk.isStaticEntry, hcompiled.sums.isEntry, hcompiled.sums.isDynamicEntry,
    Bool.true_and]
  rfl

/-- A module that imports itself. -/
def importsItself : Entry :=
  .inline "app" "import '\x00virtual:app';\nimport \x7b useState \x7d from 'react';\nuseState();\n"

theorem importsItself_analyzed : ∃ outcome,
    Compile.build (importsItself.request nowhere.settings) nowhere.files =
      (.ok outcome, nowhere.files) ∧
    ∃ g r, Answered nowhere importsItself nowhere.files outcome.files g r := by
  have hload : isComeBackTo? nowhere importsItself = some false := by decide +kernel
  obtain ⟨outcome, -, -, hbuild, -⟩ := compiled_inline hload
  exact ⟨outcome, hbuild, (analyze_of_build hbuild).2⟩

/-- A module that may load itself later. -/
def loadsItself : Entry := .inline "app" "import('\x00virtual:app');\n"

/-- **A module that may load itself later compiles and is not analyzed.** -/
theorem loadsItself_noEntryChunk : ∃ outcome,
    Compile.build (loadsItself.request nowhere.settings) nowhere.files =
      (.ok outcome, nowhere.files) ∧
    (∀ c ∈ Output.chunks outcome.files, ¬ c.isStaticEntry) ∧
    loadsItself.analyze .onFiles nowhere nowhere.files =
      (.error [.noEntryChunk "app"], nowhere.files) := by
  have hload : isComeBackTo? nowhere loadsItself = some true := by decide +kernel
  obtain ⟨outcome, g, c, hbuild, hcompiled, hstatic⟩ := compiled_inline hload
  refine ⟨outcome, hbuild, ?_, ?_⟩
  · rw [hcompiled.chunks]
    simpa using hstatic
  · have hanswer := analyze_eq hbuild hcompiled.chunks
    rw [hstatic] at hanswer
    exact hanswer

end DepBundle.Analysis
