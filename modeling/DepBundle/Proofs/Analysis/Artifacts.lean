import DepBundle.Proofs.Analysis.Entry
import DepBundle.Proofs.Analysis.Selection
import DepBundle.Proofs.Chunk.Entries
import DepBundle.Proofs.Compile.Numbering
import DepBundle.Proofs.Path.Course
/-!
# Analysis — the artifacts of dependencies

An artifact is named after the flattened specifier of its dependency, below
the directory of the output or, while a workspace is developed, below that of
a package of its own (`artifactName_eq_iff`). The name is all that tells the
stand-ins apart. So a dependency has an artifact of its own exactly where no
other that is compiled has its name (`artifacts_apart`). Specifiers that
flatten alike share a name, and the source of the last is served under it
(`iconLeft_overwritten`).
-/

namespace DepBundle.Analysis

open DepBundle.Graph DepBundle.ChunkGraph

variable {around : Surroundings} {found : Dependencies} {outputDir : Path} {files after : FileTree}
  {o : Optimized} {p q : String} {m m' : Package.Metadata} {e : StandIn}

/-! ## Names -/

section

variable (s : Settings) (members : Workspace.Members) (current outputDir : Path)

/-- The package of the workspace that keeps the artifact of a dependency, if
one does. -/
def keeper? (p : String) (m : Package.Metadata) : Option Workspace.Member :=
  if s.dev && m.inWorkspace then members.get? ((Package.packageOf? p).getD p) else none

/-- The directory that an artifact is named below: of the output, or of the
package that keeps it. -/
def artifactHome (p : String) (m : Package.Metadata) : Path :=
  ((keeper? s members p m).map fun member => member.location / ".trimpack").getD outputDir

/-- Where an artifact lies, but for the extension of its file. -/
def artifactPath (p : String) (m : Package.Metadata) : Path :=
  artifactHome s members outputDir p m / "deps" / Package.flatten p

/-- Dependencies whose artifacts are named by where they lie: all but those
below the directory of the output whose specifier is no step into a
directory. -/
def IsPlaced (p : String) (m : Package.Metadata) : Prop :=
  (keeper? s members p m).isSome ∨ p ∉ ["", ".", ".."]

theorem isEntry_deps : Path.IsEntry "deps" := ⟨by decide, by decide, by decide, by decide⟩

theorem intercalate_deps (name : String) : "/".intercalate ["deps", name] = "deps/" ++ name := by
  rw [String.intercalate_cons_of_ne_nil (List.cons_ne_nil _ _), String.intercalate_singleton]
  rfl

theorem artifactName_of_keeper {p : String} {m : Package.Metadata}
    (h : (keeper? s members p m).isSome) : artifactName s members current outputDir p m =
      Path.relative current outputDir (artifactPath s members outputDir p m) := by
  obtain ⟨member, hmember⟩ := Option.isSome_iff_exists.1 h
  rw [artifactPath, artifactHome, hmember]
  rw [keeper?] at hmember
  simp only [artifactName, hmember]
  rfl

theorem artifactName_of_not_keeper {p : String} {m : Package.Metadata}
    (h : keeper? s members p m = none) :
    artifactName s members current outputDir p m = "deps/" ++ Package.flatten p := by
  rw [keeper?] at h
  simp only [artifactName, h]

/-- An artifact is named by the way to where it lies. -/
theorem artifactName_of_isPlaced (hcurrent : current.isAbsolute) {p : String}
    {m : Package.Metadata} (h : IsPlaced s members p m) :
    artifactName s members current outputDir p m =
      Path.relative current outputDir (artifactPath s members outputDir p m) := by
  cases hkeeper : keeper? s members p m with
  | some member => exact artifactName_of_keeper s members current outputDir (by rw [hkeeper]; rfl)
  | none =>
    have hp : p ∉ ["", ".", ".."] := h.resolve_left (by simp [hkeeper])
    rw [artifactName_of_not_keeper s members current outputDir hkeeper, artifactPath, artifactHome,
      hkeeper, ← intercalate_deps]
    exact (Path.relative_join_join hcurrent outputDir isEntry_deps
      (Package.isEntry_flatten hp)).symm

/-- Without a place, an artifact has its specifier in its name as it is. -/
theorem artifactName_of_not_isPlaced {p : String} {m : Package.Metadata}
    (h : ¬ IsPlaced s members p m) : p ∈ ["", ".", ".."] ∧
      artifactName s members current outputDir p m = "deps/" ++ p := by
  obtain ⟨hkeeper, hp⟩ := not_or.1 h
  rw [not_not] at hp
  rw [Option.not_isSome_iff_eq_none] at hkeeper
  have hflat : ∀ p ∈ ["", ".", ".."], Package.flatten p = p := by decide
  refine ⟨hp, ?_⟩
  rw [artifactName_of_not_keeper s members current outputDir hkeeper, hflat p hp]

/-- No way leads to what is no entry, so an artifact that has a place shares its
name with none that has not. -/
theorem artifactName_ne {p q : String} {m m' : Package.Metadata} (hcurrent : current.isAbsolute)
    (hp : IsPlaced s members p m) (hq : ¬ IsPlaced s members q m') :
    artifactName s members current outputDir p m ≠
      artifactName s members current outputDir q m' := by
  obtain ⟨hword, hname⟩ := artifactName_of_not_isPlaced s members current outputDir hq
  have hsep : ∀ word ∈ ["", ".", ".."], '/' ∉ word.toList := by decide
  rw [artifactName_of_isPlaced s members current outputDir hcurrent hp, hname, ← intercalate_deps]
  refine Path.relative_ne_of_not_isEntry hcurrent outputDir isEntry_deps (hsep q hword)
    fun h => ?_
  simp only [List.mem_cons, List.not_mem_nil, or_false] at hword
  rcases hword with rfl | rfl | rfl
  · exact h.ne_empty rfl
  · exact h.ne_current rfl
  · exact h.ne_parent rfl

/-- **Artifacts have one name where they lie in one place.** -/
theorem artifactName_eq_iff (hcurrent : current.isAbsolute) (p : String) (m : Package.Metadata)
    (q : String) (m' : Package.Metadata) :
    artifactName s members current outputDir p m = artifactName s members current outputDir q m' ↔
      IsPlaced s members p m ∧ IsPlaced s members q m' ∧
          Path.absolutize current (artifactPath s members outputDir p m) =
            Path.absolutize current (artifactPath s members outputDir q m') ∨
        ¬ IsPlaced s members p m ∧ ¬ IsPlaced s members q m' ∧ p = q := by
  by_cases hp : IsPlaced s members p m <;> by_cases hq : IsPlaced s members q m'
  · rw [artifactName_of_isPlaced s members current outputDir hcurrent hp,
      artifactName_of_isPlaced s members current outputDir hcurrent hq,
      Path.relative_eq_iff hcurrent]
    simp [hp, hq]
  · simp [hp, hq, artifactName_ne s members current outputDir hcurrent hp hq]
  · simp [hp, hq, (artifactName_ne s members current outputDir hcurrent hq hp).symm]
  · obtain ⟨-, hname⟩ := artifactName_of_not_isPlaced s members current outputDir hp
    obtain ⟨-, hname'⟩ := artifactName_of_not_isPlaced s members current outputDir hq
    rw [hname, hname', String.append_right_inj]
    simp [hp, hq]

/-- **Artifacts lie in one place** where the specifiers differ by separators
alone and they are kept in one directory. -/
theorem artifactPath_eq_iff (hcurrent : current.isAbsolute) {p q : String}
    (m m' : Package.Metadata) (hp : p ∉ ["", ".", ".."]) (hq : q ∉ ["", ".", ".."]) :
    Path.absolutize current (artifactPath s members outputDir p m) =
        Path.absolutize current (artifactPath s members outputDir q m') ↔
      Package.SameBetweenSeparators p q ∧
        Path.absolutize current (artifactHome s members outputDir p m) =
          Path.absolutize current (artifactHome s members outputDir q m') := by
  rw [← Package.flatten_eq_iff]
  refine (Path.absolutize_entry_eq_iff hcurrent (Package.isEntry_flatten hp)
    (Package.isEntry_flatten hq)).trans (and_congr_right fun _ => ?_)
  exact (Path.absolutize_entry_eq_iff hcurrent isEntry_deps isEntry_deps).trans
    (and_iff_right rfl)

end

/-! ## The compile of dependencies -/

/-- The stand-ins that are compiled, each with its dependency. -/
def compiled (around : Surroundings) (found : Dependencies) (outputDir : Path) :
    OrderedMap String StandIn :=
  standIns around.settings around.members around.files.workingDirectory outputDir found

/-- The name of the artifact for a dependency that is compiled. -/
def nameOf (around : Surroundings) (outputDir : Path) (p : String) (m : Package.Metadata) :
    String :=
  artifactName around.settings around.members around.files.workingDirectory outputDir p m

theorem mem_compiled : (p, e) ∈ (compiled around found outputDir).entries ↔
    ∃ m, found.get? p = some m ∧ around.settings.optimizes p ∧
      e = ⟨nameOf around outputDir p m, Package.synthesize p m.bindings⟩ := by
  rw [compiled, standIns, OrderedMap.mapValues, List.mem_map]
  constructor
  · rintro ⟨⟨p', m⟩, hmem, heq⟩
    obtain ⟨rfl, rfl⟩ := Prod.mk.inj heq
    obtain ⟨hmem, hoptimizes⟩ := List.mem_filter.1 hmem
    exact ⟨m, OrderedMap.get?_eq_some_iff.2 hmem, hoptimizes, rfl⟩
  · rintro ⟨m, hm, hoptimizes, rfl⟩
    exact ⟨(p, m), List.mem_filter.2 ⟨OrderedMap.get?_eq_some_iff.1 hm, hoptimizes⟩, rfl⟩

/-- A stand-in as an entry of the program that is compiled. -/
def entryOf (e : String × StandIn) : Graph.Entry := ⟨Module.virtualId e.2.name, some e.2.name, true⟩

theorem virtualModules_optimization :
    (optimization around found outputDir files).settings.virtualModules =
      OrderedMap.ofList ((compiled around found outputDir).entries.map fun e =>
        (Module.virtualId e.2.name, e.2.source)) := by
  change OrderedMap.ofList (((compiled around found outputDir).entries.map Prod.snd).map _) = _
  rw [List.map_map]
  rfl

theorem input_optimization : (optimization around found outputDir files).settings.input =
    (compiled around found outputDir).entries.map fun e =>
      ⟨some e.2.name, Module.virtualId e.2.name⟩ := by
  change ((compiled around found outputDir).entries.map Prod.snd).map _ = _
  rw [List.map_map]
  rfl

theorem virtualId_inj {name name' : String} (h : Module.virtualId name = Module.virtualId name') :
    name = name' := by
  rw [Module.virtualId, Module.virtualId] at h
  exact (String.append_right_inj _).1 h

/-- Stand-ins are served from memory, so each stands for itself. -/
theorem resolveEntries_optimization : resolveEntries (optimization around found outputDir files) =
    .ok ((compiled around found outputDir).entries.map fun e =>
      (some e.2.name, { id := Module.virtualId e.2.name })) := by
  have hserved : ∀ input ∈ (optimization around found outputDir files).settings.input,
      (optimization around found outputDir files).settings.virtualModules.contains
        input.specifier := by
    intro input hinput
    rw [input_optimization] at hinput
    obtain ⟨e, he, rfl⟩ := List.mem_map.1 hinput
    rw [virtualModules_optimization, OrderedMap.contains_ofList, List.map_map]
    exact List.mem_map.2 ⟨e, he, rfl⟩
  rw [resolveEntries_of_forall (f := fun input => { id := input.specifier }) fun input hinput => ?_,
    input_optimization, List.map_map]
  · rfl
  · rw [Resolved.ofSpecifier, if_pos (hserved input hinput)]
    exact ⟨rfl, rfl⟩

/-- A request that is carried out has come to what its compile does. -/
theorem outcome_of_build {request : Compile.Request} {outcome : Compile.Outcome}
    (h : Compile.build request files = (.ok outcome, after)) :
    Compile.outcome files (request.settings files.workingDirectory) = .ok outcome := by
  simp only [Compile.build] at h
  split at h
  · cases (Prod.mk.inj h).1
  · rename_i outcome' houtcome
    suffices heq : outcome' = outcome by rw [houtcome, heq]
    split at h
    · split at h
      · exact Except.ok.inj (Prod.mk.inj h).1
      · cases (Prod.mk.inj h).1
    · exact Except.ok.inj (Prod.mk.inj h).1

/-- Where there is no stand-in, nothing is compiled. -/
theorem optimize_of_isEmpty {World : Type} {compiler : Compile.Compiler World} {w : World}
    (hnone : (compiled around found outputDir).isEmpty) :
    optimize compiler around found outputDir w = (.ok {}, w) := by
  rw [compiled] at hnone
  simp only [optimize, hnone, if_true]

/-- **Dependencies that are compiled are so by one request** for their
stand-ins. -/
theorem exists_build_of_optimize
    (h : optimize .onFiles around found outputDir files = (.ok o, after))
    (hsome : (compiled around found outputDir).isEmpty = false) :
    ∃ outcome, Compile.build (optimizationRequest around.settings outputDir
        (transformRoots around.settings around.members found)
        (compiled around found outputDir).values) files = (.ok outcome, after) ∧
      o = ⟨outcome.files, dependencyByFile (compiled around found outputDir)
        (Output.chunks outcome.files), externalsOf (Output.chunks outcome.files)⟩ := by
  rw [compiled] at hsome
  simp only [optimize, hsome, Bool.false_eq_true, if_false, Compile.Compiler.onFiles] at h
  split at h
  · cases (Prod.mk.inj h).1
  · rename_i outcome after' hbuild
    obtain ⟨ho, rfl⟩ := Prod.mk.inj h
    exact ⟨outcome, hbuild, (Except.ok.inj ho).symm⟩

/-- Compiling the dependencies is loading the program of their stand-ins. -/
theorem exists_load_of_optimize
    (h : optimize .onFiles around found outputDir files = (.ok o, after))
    (hsome : (compiled around found outputDir).isEmpty = false) :
    o.dependencyOf = dependencyByFile (compiled around found outputDir) (Output.chunks o.files) ∧
      ∃ g warnings, Graph.load (optimization around found outputDir files) = .ok (g, warnings) ∧
        o.files = Compile.generate files.workingDirectory
          (optimization around found outputDir files).settings g.link := by
  obtain ⟨outcome, hbuild, rfl⟩ := exists_build_of_optimize h hsome
  exact ⟨rfl, exists_load_of_outcome (outcome_of_build hbuild)⟩

/-- The files of the stand-ins that are compiled: `file p` is that of the
dependency `p`. -/
structure FilesOf (es : OrderedMap String StandIn) (chunks : List Output.Chunk)
    (file : String → Output.Chunk) : Prop where
  mem : ∀ p e, (p, e) ∈ es.entries → file p ∈ chunks ∧ (file p).isEntry
  /-- It has the name of the stand-in, and its module. -/
  name : ∀ p e, (p, e) ∈ es.entries → (file p).name = e.name
  entryModule : ∀ p e, (p, e) ∈ es.entries → (file p).entryModule = some (Module.virtualId e.name)
  /-- No two dependencies have one file, -/
  inj : ∀ p ∈ es.keys, ∀ q ∈ es.keys, (file p).fileName = (file q).fileName → p = q
  /-- and there are no other files of entries. -/
  exists_of_isEntry : ∀ c ∈ chunks, c.isEntry → ∃ p ∈ es.keys, file p = c
  nodup : ((chunks.filter (·.isEntry)).map (·.fileName)).Nodup

theorem filesOf_of_entryFiles {es : OrderedMap String StandIn} {chunks : List Output.Chunk}
    {out : ℕ → Output.Chunk} (h : EntryFiles (es.entries.map entryOf) chunks out) :
    FilesOf es chunks fun p => out (es.keys.idxOf p) := by
  have hlength : (es.entries.map entryOf).length = es.keys.length := by
    rw [OrderedMap.keys, List.length_map, List.length_map]
  have hlt : ∀ p ∈ es.keys, es.keys.idxOf p < (es.entries.map entryOf).length := fun p hp => by
    rw [hlength]
    exact List.idxOf_lt_length_iff.2 hp
  have hkey : ∀ p e, (p, e) ∈ es.entries → p ∈ es.keys := fun p e he =>
    List.mem_map_of_mem (f := Prod.fst) he
  -- no key stands twice, so an entry stands where its key does
  have hat : ∀ p e, (p, e) ∈ es.entries →
      (es.entries.map entryOf)[es.keys.idxOf p]? = some (entryOf (p, e)) := by
    intro p e he
    obtain ⟨k, hk, hentry⟩ := List.getElem_of_mem he
    have hk' : k < es.keys.length := by rwa [OrderedMap.keys, List.length_map]
    have hplace : es.keys.idxOf p = k := by
      have hp : es.keys[k] = p := by simp [OrderedMap.keys, hentry]
      rw [← hp]
      exact es.nodup.idxOf_getElem k hk'
    rw [hplace, List.getElem?_map, List.getElem?_eq_getElem hk, hentry, Option.map_some]
  refine ⟨fun p e he => ?_, fun p e he => ?_, fun p e he => ?_, fun p hp q hq heq => ?_,
    fun c hc hentry => ?_, h.nodup⟩
  · exact (h.mem_iff _).2 ⟨_, hlt p (hkey p e he), rfl⟩
  · exact h.name _ _ _ (hat p e he) rfl
  · exact h.entryModule _ _ (hat p e he)
  · exact (List.idxOf_inj hp).1 (h.inj _ (hlt p hp) _ (hlt q hq) heq)
  · obtain ⟨k, hk, rfl⟩ := (h.mem_iff c).1 ⟨hc, hentry⟩
    rw [hlength] at hk
    exact ⟨es.keys[k], List.getElem_mem hk, congrArg out (es.nodup.idxOf_getElem k hk)⟩

/-- **Each dependency that is compiled has a file of its own.** -/
theorem exists_filesOf (h : optimize .onFiles around found outputDir files = (.ok o, after))
    (hsome : (compiled around found outputDir).isEmpty = false) :
    ∃ file, FilesOf (compiled around found outputDir) (Output.chunks o.files) file := by
  obtain ⟨-, g, warnings, hload, hfiles⟩ := exists_load_of_optimize h hsome
  obtain ⟨named, hnamed, hprogram⟩ := load_program hload
  obtain rfl := Except.ok.inj (resolveEntries_optimization.symm.trans hnamed)
  have hasked := askedFirst_of_program hprogram
  rw [entriesOf, List.map_map] at hasked
  rw [hfiles, generate_eq]
  exact ⟨_, filesOf_of_entryFiles
    (Rendering.entryFiles rfl rfl rfl (keyed_of_load hload) hasked)⟩

/-! ## The dependency of a file -/

section

variable {es : OrderedMap String StandIn} {chunks : List Output.Chunk} {name file : String}

/-- The dependency that a name is taken for. -/
def dependencyNamed (es : OrderedMap String StandIn) (name : String) : Option String :=
  (OrderedMap.ofList (es.entries.map fun e => (e.2.name, e.1))).get? name

theorem mem_of_dependencyNamed (h : dependencyNamed es name = some p) :
    ∃ e, (p, e) ∈ es.entries ∧ e.name = name := by
  obtain ⟨⟨p', e⟩, hmem, heq⟩ := List.mem_map.1 (OrderedMap.mem_of_get?_ofList h)
  obtain ⟨rfl, rfl⟩ := Prod.mk.inj heq
  exact ⟨e, hmem, rfl⟩

theorem exists_dependencyNamed (h : (p, e) ∈ es.entries) :
    ∃ q, dependencyNamed es e.name = some q := by
  refine Option.isSome_iff_exists.1 (OrderedMap.contains_ofList.2 ?_)
  rw [List.map_map]
  exact List.mem_map.2 ⟨(p, e), h, rfl⟩

theorem dependencyByFile_eq : dependencyByFile es chunks =
    .ofList ((chunks.filter (·.isEntry)).filterMap fun c =>
      (dependencyNamed es c.name).map fun p => (c.fileName, p)) := rfl

/-- **What a file was compiled for is told by its name.** -/
theorem get?_dependencyByFile (hnodup : ((chunks.filter (·.isEntry)).map (·.fileName)).Nodup) :
    (dependencyByFile es chunks).get? file = some p ↔
      ∃ c ∈ chunks, c.isEntry ∧ c.fileName = file ∧ dependencyNamed es c.name = some p := by
  have hkeys : (((chunks.filter (·.isEntry)).filterMap fun c =>
      (dependencyNamed es c.name).map fun p => (c.fileName, p)).map Prod.fst).Nodup := by
    rw [List.Nodup, List.pairwise_map] at hnodup ⊢
    rw [List.pairwise_filterMap]
    refine hnodup.imp fun {c c'} hne found hfound found' hfound' => ?_
    obtain ⟨-, -, rfl⟩ := Option.map_eq_some_iff.1 hfound
    obtain ⟨-, -, rfl⟩ := Option.map_eq_some_iff.1 hfound'
    exact hne
  rw [dependencyByFile_eq, OrderedMap.get?_ofList hkeys, OrderedMap.lookup_eq_some_iff hkeys,
    List.mem_filterMap]
  constructor
  · rintro ⟨c, hc, heq⟩
    obtain ⟨hmem, hentry⟩ := List.mem_filter.1 hc
    obtain ⟨q, hq, heq⟩ := Option.map_eq_some_iff.1 heq
    obtain ⟨rfl, rfl⟩ := Prod.mk.inj heq
    exact ⟨c, hmem, hentry, rfl, hq⟩
  · rintro ⟨c, hmem, hentry, rfl, hq⟩
    exact ⟨c, List.mem_filter.2 ⟨hmem, hentry⟩, by rw [hq, Option.map_some]⟩

namespace FilesOf

variable {fileOf : String → Output.Chunk}

/-- A dependency that no other one shares its name with has its file alone. -/
theorem get?_of_apart (h : FilesOf es chunks fileOf) (hp : (p, e) ∈ es.entries)
    (hapart : ∀ q e', (q, e') ∈ es.entries → e'.name = e.name → q = p) :
    (dependencyByFile es chunks).get? file = some p ↔ file = (fileOf p).fileName := by
  rw [get?_dependencyByFile h.nodup]
  constructor
  · rintro ⟨c, hc, hentry, rfl, hnamed⟩
    obtain ⟨q, hq, rfl⟩ := h.exists_of_isEntry c hc hentry
    obtain ⟨⟨q, e'⟩, he', rfl⟩ := List.mem_map.1 hq
    obtain ⟨e₀, he₀, hname⟩ := mem_of_dependencyNamed hnamed
    obtain rfl : e₀ = e := es.value_unique he₀ hp
    rw [hapart q e' he' ((h.name q e' he').symm.trans hname.symm)]
  · rintro rfl
    obtain ⟨hmem, hentry⟩ := h.mem p e hp
    refine ⟨fileOf p, hmem, hentry, rfl, ?_⟩
    obtain ⟨q, hq⟩ := exists_dependencyNamed hp
    obtain ⟨e', he', hname⟩ := mem_of_dependencyNamed hq
    rw [h.name p e hp, hq, hapart q e' he' hname]

/-- A dependency that has a file alone shares its name with no other one. -/
theorem eq_of_get? (h : FilesOf es chunks fileOf) (hp : (p, e) ∈ es.entries)
    (hown : ∀ x, (dependencyByFile es chunks).get? x = some p ↔ x = file) {q : String}
    {e' : StandIn} (hq : (q, e') ∈ es.entries) (hname : e'.name = e.name) : q = p := by
  simp only [get?_dependencyByFile h.nodup] at hown
  obtain ⟨c, -, -, -, hnamed⟩ := (hown file).2 rfl
  obtain ⟨e₀, he₀, hc⟩ := mem_of_dependencyNamed hnamed
  obtain rfl : e₀ = e := es.value_unique he₀ hp
  -- the name is taken for `p`, so `p` has the files of all that share it
  have hfile : ∀ q e', (q, e') ∈ es.entries → e'.name = e₀.name → (fileOf q).fileName = file := by
    intro q e' hq hname
    obtain ⟨hmem, hentry⟩ := h.mem q e' hq
    refine (hown _).1 ⟨fileOf q, hmem, hentry, rfl, ?_⟩
    rw [h.name q e' hq, hname, hc, hnamed]
  exact h.inj q (List.mem_map_of_mem (f := Prod.fst) hq) p (List.mem_map_of_mem (f := Prod.fst) hp)
    ((hfile q e' hq hname).trans (hfile p e₀ hp rfl).symm)

end FilesOf

end

/-- What is served for a stand-in is a source compiled under its name. -/
theorem exists_found_of_mem (files : FileTree)
    (h : (p, e) ∈ (compiled around found outputDir).entries) :
    ∃ q e', (q, e') ∈ (compiled around found outputDir).entries ∧ e'.name = e.name ∧
      Task.found (optimization around found outputDir files) (Module.virtualId e.name) =
        .script .js e'.source := by
  have hcontains : (optimization around found outputDir files).settings.virtualModules.contains
      (Module.virtualId e.name) := by
    rw [virtualModules_optimization, OrderedMap.contains_ofList, List.map_map]
    exact List.mem_map.2 ⟨(p, e), h, rfl⟩
  obtain ⟨source, hsource⟩ := Option.isSome_iff_exists.1 hcontains
  have hserved := hsource
  rw [virtualModules_optimization] at hserved
  obtain ⟨⟨q, e'⟩, hmem, heq⟩ := List.mem_map.1 (OrderedMap.mem_of_get?_ofList hserved)
  obtain ⟨hname, rfl⟩ := Prod.mk.inj heq
  refine ⟨q, e', hmem, virtualId_inj hname, ?_⟩
  rw [Task.found, hsource]

/-- **An artifact of a dependency's own:** the file of an entry that was
compiled for the dependency, as no other file was, and whose module is the
stand-in of the dependency. -/
structure OwnArtifact (around : Surroundings) (found : Dependencies) (outputDir : Path)
    (files : FileTree) (o : Optimized) (p : String) (m : Package.Metadata) (c : Output.Chunk) :
    Prop where
  mem : c ∈ Output.chunks o.files
  isEntry : c.isEntry
  dependencyOf_iff : ∀ file, o.dependencyOf.get? file = some p ↔ file = c.fileName
  entryModule : ∃ id, c.entryModule = some id ∧
    Task.found (optimization around found outputDir files) id =
      .script .js (Package.synthesize p m.bindings)

/-- **A dependency that is compiled has an artifact of its own** exactly where
no other has its name. -/
theorem exists_ownArtifact_iff
    (h : optimize .onFiles around found outputDir files = (.ok o, after))
    (hm : found.get? p = some m) (hp : around.settings.optimizes p) :
    (∃ c, OwnArtifact around found outputDir files o p m c) ↔
      ∀ q m', found.get? q = some m' → around.settings.optimizes q → q ≠ p →
        nameOf around outputDir q m' ≠ nameOf around outputDir p m := by
  have hmem : (p, ⟨nameOf around outputDir p m, Package.synthesize p m.bindings⟩) ∈
      (compiled around found outputDir).entries := mem_compiled.2 ⟨m, hm, hp, rfl⟩
  have hsome : (compiled around found outputDir).isEmpty = false :=
    List.isEmpty_eq_false_iff_exists_mem.2 ⟨_, hmem⟩
  obtain ⟨hdependency, -⟩ := exists_load_of_optimize h hsome
  obtain ⟨fileOf, hfiles⟩ := exists_filesOf h hsome
  constructor
  · rintro ⟨c, hc⟩ q m' hq hoq hne hname
    -- the map has one value for the file, and both packages would be it
    have hown := hc.dependencyOf_iff
    rw [hdependency] at hown
    exact hne (hfiles.eq_of_get? hmem hown (mem_compiled.2 ⟨m', hq, hoq, rfl⟩) hname)
  · intro hapart
    have hsame : ∀ q e', (q, e') ∈ (compiled around found outputDir).entries →
        e'.name = nameOf around outputDir p m → q = p := by
      intro q e' he' hname
      obtain ⟨m', hq, hoq, rfl⟩ := mem_compiled.1 he'
      by_contra hne
      exact hapart q m' hq hoq hne hname
    obtain ⟨hin, hentry⟩ := hfiles.mem p _ hmem
    refine ⟨fileOf p, hin, hentry, fun x => ?_, _, hfiles.entryModule p _ hmem, ?_⟩
    · rw [hdependency]
      exact hfiles.get?_of_apart hmem hsame
    · obtain ⟨q, e', he', hname, hfound⟩ := exists_found_of_mem files hmem
      obtain rfl := hsame q e' he' hname
      rwa [OrderedMap.value_unique _ he' hmem] at hfound

/-! ## What tells artifacts apart -/

/-- What tells the artifacts of dependencies apart. -/
structure Apart (around : Surroundings) (found : Dependencies) (outputDir : Path)
    (files : FileTree) : Prop where
  /-- Two have one name exactly where they lie in one place; those without a
  place have names of their own. -/
  name_eq_iff : ∀ p m q m', nameOf around outputDir p m = nameOf around outputDir q m' ↔
    IsPlaced around.settings around.members p m ∧ IsPlaced around.settings around.members q m' ∧
        Path.absolutize around.files.workingDirectory
            (artifactPath around.settings around.members outputDir p m) =
          Path.absolutize around.files.workingDirectory
            (artifactPath around.settings around.members outputDir q m') ∨
      ¬ IsPlaced around.settings around.members p m ∧
        ¬ IsPlaced around.settings around.members q m' ∧ p = q
  /-- They lie in one place where their specifiers differ by separators alone
  and one directory keeps them. -/
  path_eq_iff : ∀ p m q m', p ∉ ["", ".", ".."] → q ∉ ["", ".", ".."] →
    (Path.absolutize around.files.workingDirectory
          (artifactPath around.settings around.members outputDir p m) =
        Path.absolutize around.files.workingDirectory
          (artifactPath around.settings around.members outputDir q m') ↔
      Package.SameBetweenSeparators p q ∧
        Path.absolutize around.files.workingDirectory
            (artifactHome around.settings around.members outputDir p m) =
          Path.absolutize around.files.workingDirectory
            (artifactHome around.settings around.members outputDir q m'))
  /-- A dependency has one of its own exactly where no other one that is
  compiled has its name. -/
  own_iff : ∀ o after, optimize .onFiles around found outputDir files = (.ok o, after) →
    ∀ p m, found.get? p = some m → around.settings.optimizes p →
      ((∃ c, OwnArtifact around found outputDir files o p m c) ↔
        ∀ q m', found.get? q = some m' → around.settings.optimizes q → q ≠ p →
          nameOf around outputDir q m' ≠ nameOf around outputDir p m)

theorem isAbsolute_workingDirectory (t : FileTree) : t.workingDirectory.isAbsolute := by
  rw [FileTree.workingDirectory, FileTree.pathOf, Path.isAbsolute, String.toList_append]
  rfl

/-- **Dependencies have artifacts of their own, unless another one has the
name.** -/
theorem artifacts_apart (around : Surroundings) (found : Dependencies) (outputDir : Path)
    (files : FileTree) : Apart around found outputDir files where
  name_eq_iff := artifactName_eq_iff around.settings around.members _ outputDir
    (isAbsolute_workingDirectory _)
  path_eq_iff _ m _ m' := artifactPath_eq_iff around.settings around.members _ outputDir
    (isAbsolute_workingDirectory _) m m'
  own_iff _ _ h _ _ := exists_ownArtifact_iff h

/-- A project with nothing installed. -/
def bare : Surroundings where
  settings := ({} : Options).settings ⟨"/"⟩
  files := { entries := .empty, workingPlace := [] }
  members := .empty

/-- One dependency that is compiled, and one that is left to the host. -/
def oneCompiled : Dependencies :=
  .ofList [("a", { bindings := .named (.ofList ["x"]) }), ("sharp", { bindings := .all })]

/-- The only dependency that is compiled has an artifact of its own. -/
theorem a_ownArtifact : ∃ o after,
    optimize .onFiles bare oneCompiled ⟨"/dist"⟩ bare.files = (.ok o, after) ∧
      ∃ c, OwnArtifact bare oneCompiled ⟨"/dist"⟩ bare.files o "a"
        { bindings := .named (.ofList ["x"]) } c := by
  have hok : (optimize .onFiles bare oneCompiled ⟨"/dist"⟩ bare.files).1.toOption.isSome := by
    decide +kernel
  cases hresult : optimize .onFiles bare oneCompiled ⟨"/dist"⟩ bare.files with
  | mk result after =>
    cases result with
    | error failures =>
      rw [hresult] at hok
      cases hok
    | ok o =>
      have hapart := artifacts_apart bare oneCompiled ⟨"/dist"⟩ bare.files
      refine ⟨o, after, rfl, (hapart.own_iff o after hresult "a" _ (by decide +kernel)
        (by decide +kernel)).2 fun q m' hq hoptimizes hne => ?_⟩
      have hmem := OrderedMap.mem_of_get?_ofList hq
      simp only [List.mem_cons, Prod.mk.injEq, List.not_mem_nil, or_false] at hmem
      rcases hmem with ⟨rfl, -⟩ | ⟨rfl, -⟩
      · exact absurd rfl hne
      · exact absurd hoptimizes (by decide +kernel)

/-- Two dependencies whose specifiers flatten alike. -/
def sharingName : Dependencies :=
  .ofList [("ui/icon/left", { bindings := .named (.ofList ["Left"]) }),
    ("ui/icon+left", { bindings := .named (.ofList ["Arrow"]) })]

/-- **Specifiers that flatten alike have artifacts of one name.** Under it the
stand-in of the last is served, and neither has one of its own. -/
theorem iconLeft_overwritten : bare.settings.optimizes "ui/icon/left" ∧
    bare.settings.optimizes "ui/icon+left" ∧
    ∃ m m', sharingName.get? "ui/icon/left" = some m ∧ sharingName.get? "ui/icon+left" = some m' ∧
      m.bindings ≠ m'.bindings ∧
      nameOf bare ⟨"/dist"⟩ "ui/icon/left" m = nameOf bare ⟨"/dist"⟩ "ui/icon+left" m' ∧
      Task.found (optimization bare sharingName ⟨"/dist"⟩ bare.files)
          (Module.virtualId (nameOf bare ⟨"/dist"⟩ "ui/icon/left" m)) =
        .script .js (Package.synthesize "ui/icon+left" m'.bindings) ∧
      ∀ o after, optimize .onFiles bare sharingName ⟨"/dist"⟩ bare.files = (.ok o, after) →
        ¬ (∃ c, OwnArtifact bare sharingName ⟨"/dist"⟩ bare.files o "ui/icon/left" m c) ∧
        ¬ ∃ c, OwnArtifact bare sharingName ⟨"/dist"⟩ bare.files o "ui/icon+left" m' c := by
  have hfirst : bare.settings.optimizes "ui/icon/left" := by decide +kernel
  have hsecond : bare.settings.optimizes "ui/icon+left" := by decide +kernel
  have hget : sharingName.get? "ui/icon/left" = some { bindings := .named (.ofList ["Left"]) } := by
    decide +kernel
  have hget' : sharingName.get? "ui/icon+left" =
      some { bindings := .named (.ofList ["Arrow"]) } := by
    decide +kernel
  have hname : nameOf bare ⟨"/dist"⟩ "ui/icon/left" { bindings := .named (.ofList ["Left"]) } =
      nameOf bare ⟨"/dist"⟩ "ui/icon+left" { bindings := .named (.ofList ["Arrow"]) } := by
    decide +kernel
  have hserved : (optimization bare sharingName ⟨"/dist"⟩ bare.files).settings.virtualModules.get?
      (Module.virtualId (nameOf bare ⟨"/dist"⟩ "ui/icon/left"
        { bindings := .named (.ofList ["Left"]) })) =
      some (Package.synthesize "ui/icon+left" (.named (.ofList ["Arrow"]))) := by
    decide +kernel
  refine ⟨hfirst, hsecond, _, _, hget, hget', by decide +kernel, hname, by rw [Task.found, hserved],
    fun o after h => ⟨?_, ?_⟩⟩
  · rw [exists_ownArtifact_iff h hget hfirst]
    exact fun hapart => hapart _ _ hget' hsecond (by decide) hname.symm
  · rw [exists_ownArtifact_iff h hget' hsecond]
    exact fun hapart => hapart _ _ hget hfirst (by decide) hname

end DepBundle.Analysis
