import DepBundle.Analysis.Loader
import DepBundle.Analysis.Optimization
import DepBundle.Analysis.ResolutionMap
import DepBundle.Analysis.Validation
import DepBundle.Workspace.Membership
/-!
# Analysis — from entries to validated artifacts

The pipeline finds what the entries depend on, compiles the dependencies,
writes down where the host finds what the artifacts leave to it, and tries
to load them. Nothing is written before everything that reads the program
has succeeded.
-/

namespace DepBundle.Analysis

/-- Why the pipeline fails. -/
inductive PipelineFailure where
  | workspace (cause : Workspace.Failure)
  | analysis (cause : Failure)
  /-- The resolution map cannot be written. -/
  | unwritable (path : Path)
deriving DecidableEq

/-- The wording of why the pipeline fails. -/
def PipelineFailure.message : PipelineFailure → String
  | workspace cause => cause.message
  | analysis cause => cause.message
  | unwritable path => "Failed to write " ++ path.text

/-- What a program asks of the pipeline. -/
structure Program where
  entries : List Entry
  /-- The entry by which the workspace of the program is found. -/
  main : Path
  outputDir : Path
  settings : Settings

namespace Program

/-- The output directory. -/
def target (p : Program) : Path := (p.settings.cwd.join p.outputDir).normalize

/-- What the analysis of the program goes by. -/
def surroundings (p : Program) (t : FileTree) : Except Workspace.Failure Surroundings := do
  let main := (p.settings.cwd.join p.main).normalize
  let membership ← Workspace.membership t (main.parent?.getD p.settings.cwd)
  return ⟨p.settings, t, membership.members⟩

end Program

/-- Writes down where the host finds what an output leaves to it. -/
def writeResolutionMap (o : Optimized) (outputDir : Path) (t : FileTree) :
    Except (List PipelineFailure) Unit × FileTree :=
  let (map, _) := ResolutionMap.build (ResolutionMap.artifacts o.files) []
    o.usedExternals.toList
  let path := outputDir / ResolutionMap.fileName
  match t.write? path map.render.toUTF8 with
  | some t => (.ok (), t)
  | none => (.error [.unwritable path], t)

/-- A way to tell whether the artifact at a path loads. -/
abbrev LoadTest := FileTree → Path → Bool

/-- Runs the pipeline, once what it goes by is known. -/
def Program.process (p : Program) (compiler : Compile.Compiler FileTree) (loads : LoadTest)
    (around : Surroundings) (t : FileTree) : Except (List PipelineFailure) Validation × FileTree :=
  match analyzeAll compiler around p.entries .empty t with
  | (.error failures, t) => (.error (failures.map .analysis), t)
  | (.ok dependencies, t) =>
    match optimize compiler around dependencies p.target t with
    | (.error failures, t) => (.error (failures.map .analysis), t)
    | (.ok optimized, t) =>
      match writeResolutionMap optimized p.target t with
      | (.error failures, t) => (.error failures, t)
      | (.ok (), t) =>
        (.ok (validate (loads t) around.members optimized.files optimized.dependencyOf p.target),
          t)

/-- Runs the pipeline for a program. -/
def Program.runWith (p : Program) (compiler : Compile.Compiler FileTree) (loads : LoadTest)
    (t : FileTree) : Except (List PipelineFailure) Validation × FileTree :=
  match p.surroundings t with
  | .error cause => (.error [.workspace cause], t)
  | .ok around => p.process compiler loads around t

/-- Runs the pipeline for a program over files: they are compiled, and the
artifacts are loaded as the program would load them. -/
def Program.run (p : Program) (t : FileTree) :
    Except (List PipelineFailure) Validation × FileTree :=
  p.runWith .onFiles (fun t path => ((Loader.ofSettings p.settings t).load path).isOk) t

end DepBundle.Analysis
