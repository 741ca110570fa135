import DepBundle.CommandLine.Report
import DepBundle.Proofs.Analysis.Validation
import DepBundle.Proofs.Workspace.Packing
/-!
# Command line — what a run packs

A run that is asked to pack compiles the artifacts, tries them, and packs
the members of the workspace among the dependencies it demotes, with all
that they need. A dependency is demoted under the name it is left to the
host by, which is its package where the dependency is scoped and the
dependency as written where it is not. So the owner of an artifact that
does not load is packed where the dependency is scoped or plain, and where
something else that is packed needs it (`run_packs`); the owner of an
unscoped subpath is passed over otherwise, without a word.
-/

namespace DepBundle

/-! ## The stages of a run -/

namespace Analysis

/-- The artifacts of a program, compiled and not yet tried, with what the
analysis went by. -/
def Program.artifacts (p : Program) (compiler : Compile.Compiler FileTree) (t : FileTree) :
    Except (List PipelineFailure) (Surroundings × Optimized) × FileTree :=
  match p.surroundings t with
  | .error cause => (.error [.workspace cause], t)
  | .ok around =>
    match analyzeAll compiler around p.entries .empty t with
    | (.error failures, t) => (.error (failures.map .analysis), t)
    | (.ok dependencies, t) =>
      match optimize compiler around dependencies p.target t with
      | (.error failures, t) => (.error (failures.map .analysis), t)
      | (.ok optimized, t) =>
        match writeResolutionMap optimized p.target t with
        | (.error failures, t) => (.error failures, t)
        | (.ok (), t) => (.ok (around, optimized), t)

/-- The pipeline compiles the artifacts and tries them. -/
theorem Program.runWith_eq (p : Program) (compiler : Compile.Compiler FileTree) (loads : LoadTest)
    (t : FileTree) :
    p.runWith compiler loads t = match p.artifacts compiler t with
      | (.error failures, t) => (.error failures, t)
      | (.ok (around, o), t) =>
        (.ok (validate (loads t) around.members o.files o.dependencyOf p.target), t) := by
  unfold runWith artifacts process
  repeat' split
  all_goals simp_all

/-- The way a program over files tells whether an artifact loads. -/
def Program.loads (p : Program) : LoadTest := fun t path =>
  ((Loader.ofSettings p.settings t).load path).isOk

theorem Program.run_eq (p : Program) (t : FileTree) : p.run t = p.runWith .onFiles p.loads t := rfl

end Analysis

namespace CommandLine

open Workspace

variable {v : Analysis.Validation} {dependencyOf : OrderedMap String String}

/-- The program that arguments ask to analyze. -/
def Arguments.program (a : Arguments) (t : FileTree) : Except String Analysis.Program :=
  match configured t a.config with
  | .error message => .error message
  | .ok options =>
    match a.main.or a.entries.head? with
    | none => .error "No entry given"
    | some main =>
      let settings := (a.override options).settings t.workingDirectory
      let entries := if a.entries.isEmpty then [main] else a.entries
      .ok ⟨entries.map .file, main, settings.cwd.join (a.outDir.getD ⟨"dist"⟩), settings⟩

/-- What follows the run of a program: what it finds is packed. -/
def Arguments.afterRun (a : Arguments) (p : Analysis.Program) :
    Except (List Analysis.PipelineFailure) Analysis.Validation × FileTree → Report × FileTree
  | (.error failures, t) => (.failure [] (failures.map (·.message)), t)
  | (.ok v, t) => pack a p.settings.cwd v (if a.silent then [] else resultLines v p.outputDir) t

/-- What arguments ask for is done by the pipeline, and then what it finds
is packed. -/
theorem Arguments.perform_eq (a : Arguments) (t : FileTree) :
    a.perform t = match a.program t with
      | .error message => (.failure [] [message], t)
      | .ok p => a.afterRun p (p.run t) := by
  unfold perform program
  cases configured t a.config with
  | error => rfl
  | ok options =>
    cases a.main.or a.entries.head? with
    | none => rfl
    | some main =>
      dsimp only
      generalize Analysis.Program.run _ t = result
      obtain ⟨failures | v, t'⟩ := result <;> rfl

/-! ## What is packed -/

/-- **What is handed to the packager** after a validation that demotes some
dependencies. -/
structure Packs (v : Analysis.Validation) (dependencyOf : OrderedMap String String)
    (packed : Except PackFailure (List (String × Path))) (handed : List String) : Prop where
  /-- Up to a package that fails, the members are handed over in order. -/
  inOrder : HandsOver (needed v.members (demotedMembers v)).toList packed handed
  /-- Where none fails, they are those needed by some member that has the name
  under which the dependency of an invalid artifact is demoted. -/
  handed_iff : packed.isOk → ∀ n, n ∈ handed ↔ ∃ f ∈ v.invalidArtifacts, ∃ s,
    dependencyOf.get? f = some s ∧ Needs v.members (Package.identity s) n
  /-- The member that owns an invalid artifact is then handed over, and with it
  all that it needs, exactly where the dependency is scoped or plain, or where
  some other member is demoted that needs the owner. -/
  owner_iff : packed.isOk → ∀ f ∈ v.invalidArtifacts, ∀ s package,
    dependencyOf.get? f = some s → Package.packageOf? s = some package →
    v.members.contains package →
    ((∀ n, Needs v.members package n → n ∈ handed) ↔
      Package.IsScoped s ∨ s = package ∨ ∃ g ∈ v.invalidArtifacts, ∃ q,
        dependencyOf.get? g = some q ∧ Needs v.members (Package.identity q) package)

/-- The demoted members are those with a name under which a dependency is
demoted. -/
theorem mem_demotedMembers {n : String} :
    n ∈ demotedMembers v ↔ n ∈ v.demoted ∧ v.members.contains n :=
  List.mem_filter

/-- Packing after a validation hands over what `Packs` says. -/
theorem packs_of_demoted {World : Type} {packager : Packager World}
    (hpatience : 0 < packager.patience)
    (hdemoted : ∀ n, n ∈ v.demoted ↔ ∃ f ∈ v.invalidArtifacts, ∃ s,
      dependencyOf.get? f = some s ∧ Package.identity s = n) (w : World) :
    Packs v dependencyOf (packNeeded packager v.members (demotedMembers v) w).1
      (handed packager v.members (demotedMembers v) w) := by
  obtain ⟨-, hover, hall⟩ := packNeeded_noting hpatience v.members (demotedMembers v) w
  -- a demoted name that is no member needs nothing
  have hneeded : ∀ n, n ∈ (needed v.members (demotedMembers v)).toList ↔
      ∃ f ∈ v.invalidArtifacts, ∃ s,
        dependencyOf.get? f = some s ∧ Needs v.members (Package.identity s) n := by
    intro n
    refine mem_needed_iff.trans ⟨?_, ?_⟩
    · rintro ⟨m, hm, hneeds⟩
      obtain ⟨f, hf, s, hs, rfl⟩ := (hdemoted m).1 (mem_demotedMembers.1 hm).1
      exact ⟨f, hf, s, hs, hneeds⟩
    · rintro ⟨f, hf, s, hs, hneeds⟩
      exact ⟨_, mem_demotedMembers.2 ⟨(hdemoted _).2 ⟨f, hf, s, hs, rfl⟩, hneeds.1⟩, hneeds⟩
  have hhanded : (packNeeded packager v.members (demotedMembers v) w).1.isOk → ∀ n,
      n ∈ handed packager v.members (demotedMembers v) w ↔ ∃ f ∈ v.invalidArtifacts, ∃ s,
        dependencyOf.get? f = some s ∧ Needs v.members (Package.identity s) n :=
    fun hok n => (Iff.intro (hover.only ·) (hall hok ·)).trans (hneeded n)
  refine ⟨hover, hhanded, fun hok f hf s package hs hpackage hmember => ?_⟩
  simp only [hhanded hok]
  constructor
  · intro howner
    exact .inr (.inr (howner package (.refl hmember)))
  · intro hwhy n hn
    rw [← or_assoc, ← Package.identity_eq_iff hpackage] at hwhy
    rcases hwhy with rfl | ⟨g, hg, q, hq, hneeds⟩
    · exact ⟨f, hf, s, hs, hn⟩
    · exact ⟨g, hg, q, hq, hneeds.trans hn⟩

/-- A run that packs ends well where packing does. -/
theorem pack_of_target {a : Arguments} {target : Path} (h : a.packTarget = some target)
    (cwd : Path) (v : Analysis.Validation) (lines : List String) (t : FileTree) :
    (pack a cwd v lines t).2
        = (packNeeded (copying (cwd.join target)) v.members (demotedMembers v) t).2
      ∧ ((pack a cwd v lines t).1.code = 0 ↔
        (packNeeded (copying (cwd.join target)) v.members (demotedMembers v) t).1.isOk) := by
  simp only [pack, h]
  match packNeeded (copying (cwd.join target)) v.members (demotedMembers v) t with
  | (.error failure, t) => simp [Report.failure, Except.isOk, Except.toBool]
  | (.ok packed, t) => simp [Except.isOk, Except.toBool]

/-- **What a run packs.** Whatever words ask for packing and however the
pipeline gets that far, the owner of an artifact that does not load is packed
together with all it needs where its dependency is scoped or plain, and is
passed over for an unscoped subpath that nothing else makes up for. -/
theorem run_packs {words : List String} {t t' : FileTree} {a : Arguments} {target : Path}
    {p : Analysis.Program} (hwords : Invocation.ofWords words = .run a)
    (htarget : a.packTarget = some target) (hp : a.program t = .ok p)
    (hv : p.run t = (.ok v, t')) :
    let packager := copying (p.settings.cwd.join target)
    let packed := packNeeded packager v.members (demotedMembers v) t'
    ∃ around o, p.artifacts .onFiles t = (.ok (around, o), t') ∧
      Packs v o.dependencyOf packed.1 (handed packager v.members (demotedMembers v) t') ∧
      (run words t).2 = packed.2 ∧ ((run words t).1.code = 0 ↔ packed.1.isOk) := by
  intro packager packed
  have hrun : run words t =
      pack a p.settings.cwd v (if a.silent then [] else resultLines v p.outputDir) t' := by
    simp only [run, hwords, Arguments.perform_eq, hp, hv, Arguments.afterRun]
  have hartifacts := hv
  rw [Analysis.Program.run_eq, Analysis.Program.runWith_eq] at hartifacts
  split at hartifacts
  · cases hartifacts
  · rename_i around o t'' ho
    cases hartifacts
    refine ⟨around, o, ho, packs_of_demoted Nat.one_pos (fun n => Analysis.mem_demoted) t', ?_⟩
    rw [hrun]
    exact pack_of_target htarget _ _ _ _

/-! ## An owner that is packed and one that is not -/

/-- A workspace with an app whose output directory is a link. Artifacts that
stay with the packages of the workspace are written through the link and
looked for past it, so none loads. -/
def linkedApp (specifier : String) : FileTree where
  entries := .ofList [
    (["package.json"], .file "\x7b\"workspaces\":[\"ui\",\"app\"]\x7d".toUTF8),
    (["app"], .directory),
    (["app", "package.json"], .file "\x7b\"name\":\"app\"\x7d".toUTF8),
    (["app", "main.js"], .file ("import '" ++ specifier ++ "';").toUTF8),
    (["app", "dist"], .link ⟨"/srv/www/dist"⟩),
    (["srv"], .directory),
    (["srv", "www"], .directory),
    (["srv", "www", "dist"], .directory),
    (["ui"], .directory),
    (["ui", "package.json"], .file "\x7b\"name\":\"ui\",\"main\":\"button.js\"\x7d".toUTF8),
    (["ui", "button.js"], .file "".toUTF8),
    (["node_modules"], .directory),
    (["node_modules", "ui"], .link ⟨"/ui"⟩)]
  workingPlace := ["app"]

/-- The words of a run that packs. -/
def packingWords : List String := ["main.js", "--dev", "--pack-workspace", "packed"]

/-- What they ask for. -/
def packingArguments : Arguments where
  entries := [⟨"main.js"⟩]
  packTarget := some ⟨"packed"⟩
  dev := true

/-- The program that they analyze in the app. -/
def linkedProgram : Analysis.Program :=
  let settings := (packingArguments.override {}).settings ⟨"/app"⟩
  ⟨[.file ⟨"main.js"⟩], ⟨"main.js"⟩, settings.cwd.join ⟨"dist"⟩, settings⟩

/-- What a program comes to before anything is packed, as far as it can be
compared. -/
structure Found where
  dependencyOf : List (String × String)
  invalidArtifacts : List String
  demoted : List String
  members : List String
deriving DecidableEq

/-- What a program finds once its artifacts are tried. -/
def Found.ofArtifacts (p : Analysis.Program) :
    Except (List Analysis.PipelineFailure) (Analysis.Surroundings × Analysis.Optimized) ×
      FileTree → Option Found
  | (.error _, _) => none
  | (.ok (around, o), t) =>
    let v := Analysis.validate (p.loads t) around.members o.files o.dependencyOf p.target
    some ⟨o.dependencyOf.entries, v.invalidArtifacts.toList, v.demoted.toList, v.members.keys⟩

theorem exists_of_ofArtifacts {p : Analysis.Program} {t : FileTree} {found : Found}
    (h : Found.ofArtifacts p (p.artifacts .onFiles t) = some found) :
    ∃ around o v t', p.artifacts .onFiles t = (.ok (around, o), t') ∧ p.run t = (.ok v, t') ∧
      found = ⟨o.dependencyOf.entries, v.invalidArtifacts.toList, v.demoted.toList,
        v.members.keys⟩ := by
  rw [Analysis.Program.run_eq, Analysis.Program.runWith_eq]
  revert h
  rcases p.artifacts .onFiles t with ⟨failures | ⟨around, o⟩, t'⟩
  · exact nofun
  · intro h
    exact ⟨around, o, _, t', rfl, rfl, (Option.some.inj h).symm⟩

/-- **The owner of a plain dependency is packed.** -/
theorem ui_packed : ∃ around o v t',
    Invocation.ofWords packingWords = .run packingArguments ∧
    packingArguments.packTarget = some ⟨"packed"⟩ ∧
    packingArguments.program (linkedApp "ui") = .ok linkedProgram ∧
    linkedProgram.artifacts .onFiles (linkedApp "ui") = (.ok (around, o), t') ∧
    linkedProgram.run (linkedApp "ui") = (.ok v, t') ∧
    "../../ui/.trimpack/deps/ui.js" ∈ v.invalidArtifacts ∧
    o.dependencyOf.get? "../../ui/.trimpack/deps/ui.js" = some "ui" ∧
    ((run packingWords (linkedApp "ui")).1.code = 0 →
      "ui" ∈ handed (copying ⟨"/app/packed"⟩) v.members (demotedMembers v) t') := by
  -- the run as far as the artifacts are tried is evaluated once
  have hfound : Found.ofArtifacts linkedProgram
      (linkedProgram.artifacts .onFiles (linkedApp "ui")) = some
      ⟨[("../../ui/.trimpack/deps/ui.js", "ui")], ["../../ui/.trimpack/deps/ui.js"], ["ui"],
        ["ui", "app"]⟩ := by decide +kernel
  obtain ⟨around, o, v, t', ho, hv, h⟩ := exists_of_ofArtifacts hfound
  injection h with hentries hinvalid _ hmembers
  have hwords : Invocation.ofWords packingWords = .run packingArguments := rfl
  have hp : packingArguments.program (linkedApp "ui") = .ok linkedProgram := rfl
  obtain ⟨around', o', ho', hpacks, -, hcode⟩ := run_packs hwords rfl hp hv
  obtain ⟨⟨rfl, rfl⟩, -⟩ : (around = around' ∧ o = o') ∧ t' = t' := by
    simpa [ho] using ho'
  have hf : "../../ui/.trimpack/deps/ui.js" ∈ v.invalidArtifacts := by
    change _ ∈ v.invalidArtifacts.toList
    simp [← hinvalid]
  have hs : o.dependencyOf.get? "../../ui/.trimpack/deps/ui.js" = some "ui" := by
    simp [OrderedMap.get?_eq_some_iff, ← hentries]
  have hmember : v.members.contains "ui" := by
    simp [OrderedMap.contains_iff_mem_keys, ← hmembers]
  refine ⟨around, o, v, t', hwords, rfl, hp, ho, hv, hf, hs, fun hok => ?_⟩
  have howner := hpacks.owner_iff (hcode.1 hok) _ hf "ui" "ui" hs (by decide +kernel) hmember
  exact howner.2 (.inr (.inl rfl)) "ui" (.refl hmember)

/-- **The owner of an unscoped subpath is not.** It is demoted as it is
written, and that is no member. -/
theorem button_owner_not_packed : ∃ around o v t',
    Invocation.ofWords packingWords = .run packingArguments ∧
    packingArguments.packTarget = some ⟨"packed"⟩ ∧
    packingArguments.program (linkedApp "ui/button") = .ok linkedProgram ∧
    linkedProgram.artifacts .onFiles (linkedApp "ui/button") = (.ok (around, o), t') ∧
    linkedProgram.run (linkedApp "ui/button") = (.ok v, t') ∧
    "../../ui/.trimpack/deps/ui+button.js" ∈ v.invalidArtifacts ∧
    o.dependencyOf.get? "../../ui/.trimpack/deps/ui+button.js" = some "ui/button" ∧
    Package.packageOf? "ui/button" = some "ui" ∧ v.members.contains "ui" ∧
    handed (copying ⟨"/app/packed"⟩) v.members (demotedMembers v) t' = [] := by
  have hfound : Found.ofArtifacts linkedProgram
      (linkedProgram.artifacts .onFiles (linkedApp "ui/button")) = some
      ⟨[("../../ui/.trimpack/deps/ui+button.js", "ui/button")],
        ["../../ui/.trimpack/deps/ui+button.js"], ["ui/button"], ["ui", "app"]⟩ := by
    decide +kernel
  obtain ⟨around, o, v, t', ho, hv, h⟩ := exists_of_ofArtifacts hfound
  injection h with hentries hinvalid hdemoted hmembers
  -- the subpath is demoted as it is written, and no member is called that
  have hnone : demotedMembers v = [] := by
    simp [demotedMembers, ← hdemoted, OrderedMap.contains_iff_mem_keys, ← hmembers]
  refine ⟨around, o, v, t', rfl, rfl, rfl, ho, hv, ?_, ?_, by decide +kernel, ?_, ?_⟩
  · change _ ∈ v.invalidArtifacts.toList
    simp [← hinvalid]
  · simp [OrderedMap.get?_eq_some_iff, ← hentries]
  · simp [OrderedMap.contains_iff_mem_keys, ← hmembers]
  · rw [hnone, List.eq_nil_iff_forall_not_mem]
    intro n hn
    obtain ⟨-, hover, -⟩ := packNeeded_noting (p := copying ⟨"/app/packed"⟩) Nat.one_pos
      v.members [] t'
    obtain ⟨m, hm, -⟩ := mem_needed_iff.1 (hover.only hn)
    cases hm

end CommandLine

end DepBundle
