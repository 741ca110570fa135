import DepBundle.Analysis.Pipeline
import DepBundle.Proofs.Analysis.Artifacts
import DepBundle.Proofs.Compile.Placement
/-!
# Analysis — what a run that fails leaves behind

Everything a run reads it reads before it writes: the workspace, the entries one
after another, and the program of the stand-ins, up to the first that fails. It
writes in two places only, the output files and behind them the resolution map.
So a run that fails has failed before the first write, or it stands at a write
that could not be carried out (`FailsToWrite`), and then what was to be written
before it was (`run_error_cases`). In all other cases the files are what they
were, whatever had been analyzed by then, and no artifact has been tried
(`runWith_error_unchanged`).
-/

namespace DepBundle.Analysis

open DepBundle.Graph

variable {around : Surroundings} {entry : Entry} {entries : List Entry}
  {known found : Dependencies} {outputDir directory : Path} {t t' : FileTree} {o : Optimized}
  {p : Program} {loads : LoadTest} {request : Compile.Request} {outcome : Compile.Outcome}
  {files : List Output.File} {failures : List PipelineFailure}

/-! ## Compiling -/

/-- **Files are written up to the first that cannot be:** those before it are. -/
theorem exists_of_writeAll_error {causes : List Compile.Failure}
    (h : Compile.writeAll directory files t = (.error causes, t')) :
    ∃ done file rest, files = done ++ file :: rest ∧
      Compile.writeAll directory done t = (.ok (), t') ∧
      t'.write? (directory.join ⟨file.fileName⟩) file.content = none ∧
      causes = [.unwritable (directory.join ⟨file.fileName⟩)] := by
  induction files generalizing t with
  | nil => cases (Prod.mk.inj h).1
  | cons file files ih =>
    rw [Compile.writeAll_cons] at h
    cases hwrite : t.write? (directory.join ⟨file.fileName⟩) file.content with
    | none =>
      simp only [hwrite] at h
      obtain ⟨hcauses, rfl⟩ := Prod.mk.inj h
      exact ⟨[], file, files, rfl, rfl, hwrite, (Except.error.inj hcauses).symm⟩
    | some written =>
      simp only [hwrite] at h
      obtain ⟨done, last, rest, rfl, hdone, hlast⟩ := ih h
      refine ⟨file :: done, last, rest, rfl, ?_, hlast⟩
      rw [Compile.writeAll_cons]
      simp only [hwrite, hdone]

/-- A request that fails has changed nothing, or what it compiled could not be
written. -/
theorem build_error_cases {causes : List Compile.Failure}
    (h : Compile.build request t = (.error causes, t')) :
    t' = t ∨ ∃ outcome,
      Compile.outcome t (request.settings t.workingDirectory) = .ok outcome ∧
      Compile.writeAll (request.settings t.workingDirectory).outputDir outcome.files t =
        (.error causes, t') := by
  rw [Compile.build] at h
  cases houtcome : Compile.outcome t (request.settings t.workingDirectory) with
  | error causes =>
    simp only [houtcome] at h
    exact Or.inl (Prod.mk.inj h).2.symm
  | ok outcome =>
    simp only [houtcome] at h
    split_ifs at h with hwrite
    · refine Or.inr ⟨outcome, rfl, ?_⟩
      split at h
      · cases (Prod.mk.inj h).1
      · rename_i hwritten
        rw [hwritten, (Prod.mk.inj h).2, (Except.error.inj (Prod.mk.inj h).1)]
    · cases (Prod.mk.inj h).1

/-! ## Analyzing -/

/-- **Analyzing an entry leaves the files alone,** whatever it comes to. -/
theorem snd_analyze : (entry.analyze .onFiles around t).2 = t := by
  have hcompile : Compile.Compiler.onFiles.compile (entry.request around.settings) t =
      (Compile.outcome t (entry.settings around.settings t), t) := build_request
  rw [Entry.analyze, hcompile]
  cases Compile.outcome t (entry.settings around.settings t) with
  | error causes => rfl
  | ok outcome =>
    dsimp only
    split <;> rfl

/-- **So does analyzing entries,** also where some were analyzed before one
fails. -/
theorem snd_analyzeAll : (analyzeAll .onFiles around entries known t).2 = t := by
  induction entries generalizing known with
  | nil => rfl
  | cons entry entries ih =>
    have hsnd : (entry.analyze .onFiles around t).2 = t := snd_analyze
    rw [analyzeAll]
    cases hanalysis : entry.analyze .onFiles around t with
    | mk result after =>
      rw [hanalysis] at hsnd
      obtain rfl : after = t := hsnd
      cases result with
      | error causes => rfl
      | ok analysis => exact ih

/-- Compiling the dependencies fails before anything is written, or at a file
that cannot be. -/
theorem optimize_error_cases {causes : List Failure}
    (h : optimize .onFiles around found outputDir t = (.error causes, t')) :
    t' = t ∨ ∃ outcome done file rest,
      Compile.outcome t (optimization around found outputDir t).settings = .ok outcome ∧
      outcome.files = done ++ file :: rest ∧
      Compile.writeAll (optimization around found outputDir t).settings.outputDir done t =
        (.ok (), t') ∧
      t'.write? ((optimization around found outputDir t).settings.outputDir.join ⟨file.fileName⟩)
        file.content = none ∧
      causes = [.compile (.unwritable
        ((optimization around found outputDir t).settings.outputDir.join ⟨file.fileName⟩))] := by
  simp only [optimize, Compile.Compiler.onFiles] at h
  split_ifs at h
  · cases (Prod.mk.inj h).1
  · split at h
    · rename_i causes' after hbuild
      obtain ⟨hcauses, rfl⟩ := Prod.mk.inj h
      refine (build_error_cases hbuild).imp id ?_
      rintro ⟨outcome, houtcome, hwritten⟩
      obtain ⟨done, file, rest, hfiles, hdone, hfails, rfl⟩ := exists_of_writeAll_error hwritten
      exact ⟨outcome, done, file, rest, houtcome, hfiles, hdone, hfails,
        (Except.error.inj hcauses).symm⟩
    · cases (Prod.mk.inj h).1

/-! ## The whole pipeline -/

/-- What is written down of where the host finds what an output leaves to it. -/
def resolutionText (o : Optimized) : ByteArray :=
  (ResolutionMap.build (ResolutionMap.artifacts o.files) [] o.usedExternals.toList).1.render.toUTF8

/-- **How a run fails to write:** what it came to before, what it had written by
then, and what it could not write. -/
inductive FailsToWrite (p : Program) (t : FileTree) : List PipelineFailure → FileTree → Prop where
  /-- An output file cannot be written, and those before it are. -/
  | artifact {around : Surroundings} {found : Dependencies} {outcome : Compile.Outcome}
      {done rest : List Output.File} {file : Output.File} {t' : FileTree}
      (surroundings : p.surroundings t = .ok around)
      (analyzed : analyzeAll .onFiles around p.entries .empty t = (.ok found, t))
      (compiled : Compile.outcome t (optimization around found p.target t).settings = .ok outcome)
      (files : outcome.files = done ++ file :: rest)
      (written : Compile.writeAll (optimization around found p.target t).settings.outputDir done t =
        (.ok (), t'))
      (fails : t'.write? ((optimization around found p.target t).settings.outputDir.join
        ⟨file.fileName⟩) file.content = none) :
      FailsToWrite p t [.analysis (.compile (.unwritable
        ((optimization around found p.target t).settings.outputDir.join ⟨file.fileName⟩)))] t'
  /-- The resolution map cannot be written, and all output files are. -/
  | resolutionMap {around : Surroundings} {found : Dependencies} {o : Optimized} {t' : FileTree}
      (surroundings : p.surroundings t = .ok around)
      (analyzed : analyzeAll .onFiles around p.entries .empty t = (.ok found, t))
      (optimized : optimize .onFiles around found p.target t = (.ok o, t'))
      (fails : t'.write? (p.target / ResolutionMap.fileName) (resolutionText o) = none) :
      FailsToWrite p t [.unwritable (p.target / ResolutionMap.fileName)] t'

theorem writeResolutionMap_eq (o : Optimized) (outputDir : Path) (t : FileTree) :
    writeResolutionMap o outputDir t =
      match t.write? (outputDir / ResolutionMap.fileName) (resolutionText o) with
      | some t => (.ok (), t)
      | none => (.error [.unwritable (outputDir / ResolutionMap.fileName)], t) := rfl

/-- **A run that fails** has changed nothing, or it fails to write. -/
theorem run_error_cases (h : p.runWith .onFiles loads t = (.error failures, t')) :
    t' = t ∨ FailsToWrite p t failures t' := by
  delta Program.runWith Program.process at h
  -- stage by stage: the first two write nothing, the others say what they could not write
  generalize hsurroundings : p.surroundings t = result at h
  obtain cause | around := result
  · exact Or.inl (Prod.mk.inj h).2.symm
  dsimp only at h
  have hkept : (analyzeAll .onFiles around p.entries .empty t).2 = t := snd_analyzeAll
  generalize hfound : analyzeAll .onFiles around p.entries .empty t = result at h hkept
  obtain ⟨causes | found, analyzed⟩ := result
  · exact Or.inl ((Prod.mk.inj h).2.symm.trans hkept)
  obtain rfl : analyzed = t := hkept
  dsimp only at h
  generalize ho : optimize .onFiles around found p.target analyzed = result at h
  obtain ⟨causes | o, compiled⟩ := result
  · obtain ⟨hcauses, rfl⟩ := Prod.mk.inj h
    obtain rfl := Except.error.inj hcauses
    refine (optimize_error_cases ho).imp id ?_
    rintro ⟨outcome, done, file, rest, houtcome, hfiles, hdone, hfails, rfl⟩
    exact .artifact hsurroundings hfound houtcome hfiles hdone hfails
  dsimp only at h
  rw [writeResolutionMap_eq] at h
  cases hwrite : compiled.write? (p.target / ResolutionMap.fileName) (resolutionText o) with
  | some written =>
    simp only [hwrite] at h
    cases (Prod.mk.inj h).1
  | none =>
    simp only [hwrite] at h
    obtain ⟨hcauses, rfl⟩ := Prod.mk.inj h
    obtain rfl := Except.error.inj hcauses
    exact Or.inr (.resolutionMap hsurroundings hfound ho hwrite)

/-- A run fails before any artifact is tried. -/
theorem run_error_of_error (h : p.runWith .onFiles loads t = (.error failures, t'))
    (others : LoadTest) : p.runWith .onFiles others t = (.error failures, t') := by
  delta Program.runWith Program.process at h ⊢
  generalize p.surroundings t = result at h ⊢
  obtain cause | around := result
  · exact h
  dsimp only at h ⊢
  generalize analyzeAll .onFiles around p.entries .empty t = result at h ⊢
  obtain ⟨causes | found, analyzed⟩ := result
  · exact h
  dsimp only at h ⊢
  generalize optimize .onFiles around found p.target analyzed = result at h ⊢
  obtain ⟨causes | o, compiled⟩ := result
  · exact h
  dsimp only at h ⊢
  generalize writeResolutionMap o p.target compiled = result at h ⊢
  obtain ⟨causes | ⟨⟩, written⟩ := result
  · exact h
  · cases (Prod.mk.inj h).1

/-- **A run that fails leaves all files as they were,** unless it fails to write:
whatever stage it comes to, and however artifacts would be tried. -/
theorem runWith_error_unchanged (h : p.runWith .onFiles loads t = (.error failures, t'))
    (hwrite : ¬ FailsToWrite p t failures t') :
    t' = t ∧ ∀ others : LoadTest, p.runWith .onFiles others t = (.error failures, t) := by
  obtain rfl := (run_error_cases h).resolve_right hwrite
  exact ⟨rfl, run_error_of_error h⟩

/-- An installed package that cannot be parsed. -/
def tornUi : FileTree where
  entries := .ofList
    [(["node_modules"], .directory), (["node_modules", "ui"], .directory),
      (["node_modules", "ui", "package.json"],
        .file "\x7b\"name\":\"ui\",\"main\":\"ui.js\"\x7d".toUTF8),
      (["node_modules", "ui", "ui.js"], .file "export const = 1;".toUTF8)]
  workingPlace := []

/-- A program that is analyzed entry by entry before the package is read. -/
def tornProgram : Program where
  entries := [.inline "plain" "export const x = 1;", .inline "shop" "import \x7b Button \x7d from 'ui';"]
  main := ⟨"shop.js"⟩
  outputDir := ⟨"dist"⟩
  settings := ({} : Options).settings tornUi.workingDirectory

/-- What goes wrong: the package is asked for by its stand-in, and no program. -/
def tornFailure : PipelineFailure :=
  .analysis (.compile (.malformed
    "node_modules/ui/ui.js (imported by \x00virtual:deps/ui)"))

/-- The entries are analyzed, the program of the stand-ins is not read to its end,
and nothing is written. -/
theorem torn_error_unchanged : ∃ t',
    tornProgram.runWith .onFiles (fun _ _ => true) tornUi = (.error [tornFailure], t') ∧
    ¬ FailsToWrite tornProgram tornUi [tornFailure] t' ∧
    t' = tornUi ∧ ∀ others : LoadTest,
      tornProgram.runWith .onFiles others tornUi = (.error [tornFailure], tornUi) := by
  have hvalue : (match (tornProgram.runWith .onFiles (fun _ _ => true) tornUi).1 with
      | .error failures => some failures
      | .ok _ => none) = some [tornFailure] := by decide +kernel
  cases hrun : tornProgram.runWith .onFiles (fun _ _ => true) tornUi with
  | mk result t' =>
    rw [hrun] at hvalue
    cases result with
    | ok v => cases hvalue
    | error failures =>
      obtain rfl : failures = [tornFailure] := Option.some.inj hvalue
      have hread : ¬ FailsToWrite tornProgram tornUi [tornFailure] t' := by
        intro hwrite
        cases hwrite
      exact ⟨t', rfl, hread, runWith_error_unchanged hrun hread⟩

end DepBundle.Analysis
