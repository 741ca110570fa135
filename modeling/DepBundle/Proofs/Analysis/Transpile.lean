import DepBundle.Proofs.Analysis.Dependencies
import DepBundle.Proofs.Analysis.Selection
/-!
# Analysis — sources that are transpiled

Where a dependency is installed is told by the first entry that finds it,
among those that read from it at once (`rootOf?_of_analyzeAll`). A project
lists packages whose sources may be TypeScript or JSX, and these are looked up
among the dependencies. Dependencies go by whole specifiers. So a package that
is only imported by its subpaths is not found there, and its sources are
refused as those of one that is not listed (`transpiles_of_analyzeAll`).
-/

namespace DepBundle.Analysis

open DepBundle.Graph DepBundle.ChunkGraph

variable {around : Surroundings} {entry : Entry} {entries : List Entry} {t t' : FileTree}
  {found known : Dependencies} {c : Output.Chunk} {x : String} {root : Path}

/-! ## Where dependencies are installed -/

/-- Where a dependency is installed, if that is known. -/
def Dependencies.rootOf? (found : Dependencies) (x : String) : Option Path :=
  (found.get? x).bind (·.root)

theorem rootOf?_eq (found : Dependencies) (x : String) :
    found.rootOf? x = (Package.about found x).root := by
  rw [Dependencies.rootOf?, Package.about]
  cases found.get? x <;> rfl

/-- **What is known first counts.** -/
theorem rootOf?_merge (known found : Dependencies) (x : String) :
    (known.merge found).rootOf? x = (known.rootOf? x).or (found.rootOf? x) := by
  simp only [rootOf?_eq, about_merge, Package.Metadata.merge]

/-- An entry looks for what its chunk reads from at once. -/
theorem rootOf?_dependenciesOf : (dependenciesOf around entry c).rootOf? x =
    if isCandidate around.settings x ∧ x ≠ toolBindings ∧ c.importedBindings.contains x then
      entry.packageRoot? around x
    else none := by
  rw [rootOf?_eq]
  by_cases hcandidate : isCandidate around.settings x
  · rw [about_dependenciesOf hcandidate]
    simp only [hcandidate, true_and]
    split <;> rfl
  · have hnone : ¬ (dependenciesOf around entry c).contains x := fun hx =>
      hcandidate (contains_dependenciesOf.1 hx).1
    rw [Package.about_of_not_contains hnone, if_neg fun h => hcandidate h.1]

/-! ## One entry after another -/

/-- Whether a program reads from a dependency at once, whichever of its
modules does. -/
def Entry.ReadsAtOnce (around : Surroundings) (t : FileTree) (entry : Entry) (x : String) : Prop :=
  ∃ g warnings, Graph.load ⟨t, entry.settings around.settings t⟩ = .ok (g, warnings) ∧
    ∃ id record, ReadsFrom g id x record

/-- Where an entry finds a dependency. -/
def Entry.root? (around : Surroundings) (t : FileTree) (x : String) (entry : Entry) : Option Path :=
  (entry.analyze .onFiles around t).1.toOption.bind fun analysis => analysis.dependencies.rootOf? x

/-- **An entry finds a dependency** that it reads from at once, where the
package is as seen from the entry. -/
theorem root?_eq_some_iff {analysis : EntryAnalysis}
    (h : entry.analyze .onFiles around t = (.ok analysis, t')) :
    entry.root? around t x = some root ↔ isCandidate around.settings x ∧ x ≠ toolBindings ∧
      entry.ReadsAtOnce around t x ∧ entry.packageRoot? around x = some root := by
  obtain ⟨-, files, g, r, c, hcompiled, rfl⟩ := exists_compiled_of_analyze h
  have hroot : entry.root? around t x = (dependenciesOf around entry c).rootOf? x := by
    rw [Entry.root?, h]
    rfl
  have hreads : c.importedBindings.contains x ↔ entry.ReadsAtOnce around t x := by
    rw [hcompiled.sums.contains]
    constructor
    · rintro hreads
      obtain ⟨warnings, hload⟩ := hcompiled.load
      exact ⟨g, warnings, hload, hreads⟩
    · rintro ⟨g', warnings', hload', hreads⟩
      obtain ⟨warnings, hload⟩ := hcompiled.load
      obtain ⟨rfl, -⟩ := Prod.mk.inj (Except.ok.inj (hload.symm.trans hload'))
      exact hreads
  rw [hroot, rootOf?_dependenciesOf, ← hreads]
  split
  · rename_i hfinds
    simp [hfinds]
  · rename_i hfinds
    refine iff_of_false (by simp) fun hall => hfinds ⟨hall.1, hall.2.1, hall.2.2.1⟩

/-- **The first entry that finds a dependency tells where it is.** -/
theorem rootOf?_of_analyzeAll (h : analyzeAll .onFiles around entries known t = (.ok found, t')) :
    (∀ x, found.rootOf? x = (known.rootOf? x).or (entries.findSome? (·.root? around t x))) ∧
      ∀ entry ∈ entries, ∃ analysis, entry.analyze .onFiles around t = (.ok analysis, t) := by
  induction entries generalizing known with
  | nil =>
    obtain ⟨hfound, -⟩ := Prod.mk.inj h
    obtain rfl := Except.ok.inj hfound
    simp
  | cons entry entries ih =>
    obtain ⟨analysis, after, hanalysis, hrest⟩ := exists_analyze_of_analyzeAll h
    obtain ⟨rfl, -⟩ := exists_compiled_of_analyze hanalysis
    obtain ⟨hroots, hanalyzed⟩ := ih hrest
    refine ⟨fun x => ?_, ?_⟩
    · have hroot : entry.root? around after x = analysis.dependencies.rootOf? x := by
        rw [Entry.root?, hanalysis]
        rfl
      rw [hroots, rootOf?_merge, Option.or_assoc, List.findSome?_cons, hroot]
      cases analysis.dependencies.rootOf? x <;> rfl
    · simpa using ⟨⟨analysis, hanalysis⟩, hanalyzed⟩

/-! ## What is transpiled -/

/-- The roots of the workspace, and of what is listed and known by the name
that is listed. -/
theorem mem_transformRoots : root ∈ transformRoots around.settings around.members found ↔
    (∃ member ∈ around.members.values, member.location = root) ∨
      ∃ name ∈ around.settings.transpilePackages, found.rootOf? name = some root := by
  rw [transformRoots, List.mem_append, List.mem_map, List.mem_filterMap]
  rfl

/-- **Which sources of installed packages are transpiled** after an
analysis. -/
structure Transpiles (around : Surroundings) (entries : List Entry) (t : FileTree)
    (found : Dependencies) : Prop where
  /-- Where a dependency is installed is told by the first entry that finds
  it. -/
  first : ∀ x, found.rootOf? x = entries.findSome? (·.root? around t x)
  /-- An entry finds what it reads from at once, where the package is. -/
  finds : ∀ entry ∈ entries, ∀ x root, entry.root? around t x = some root ↔
    isCandidate around.settings x ∧ x ≠ toolBindings ∧ entry.ReadsAtOnce around t x ∧
      entry.packageRoot? around x = some root
  /-- The roots given to the compile are those of the workspace, and those of
  the specifiers that are listed. -/
  given : ∀ root, root ∈ transformRoots around.settings around.members found ↔
    (∃ member ∈ around.members.values, member.location = root) ∨
      ∃ name ∈ around.settings.transpilePackages, found.rootOf? name = some root
  /-- Below a root that is given no source is refused for its types or its
  markup, -/
  accepts : ∀ root ∈ transformRoots around.settings around.members found,
    ∀ outputDir files (task : Task) failures, task.path.startsWith root →
      task.load (optimization around found outputDir files) = .error failures →
      ∀ module, .notTranspiled module ∉ failures
  /-- and elsewhere among the installed packages every one is that has
  some. -/
  refuses : ∀ outputDir files (task : Task) type source,
    Task.found (optimization around found outputDir files) task.module.id = .script type source →
      type.needsTransform → task.path.inInstalledPackages →
      (∀ root ∈ transformRoots around.settings around.members found,
        ¬ task.path.startsWith root) →
      task.load (optimization around found outputDir files) =
        .error [.notTranspiled (task.shown (optimization around found outputDir files))]

theorem transforms_optimization (outputDir : Path) (files : FileTree) (path : Path) :
    (optimization around found outputDir files).settings.transforms path ↔
      (path.inInstalledPackages →
        ∃ root ∈ transformRoots around.settings around.members found, path.startsWith root) := by
  have hroots : (optimization around found outputDir files).settings.transformRoots =
      transformRoots around.settings around.members found := rfl
  rw [Compile.Settings.transforms, hroots, Bool.or_eq_true, Bool.not_eq_true', List.any_eq_true]
  cases path.inInstalledPackages <;> simp

/-- **Where the sources of a listed package are transpiled:** below the root
of a specifier that is listed, and the specifiers that lead below it are not
asked. -/
theorem transpiles_of_analyzeAll
    (h : analyzeAll .onFiles around entries .empty t = (.ok found, t')) :
    Transpiles around entries t found := by
  obtain ⟨hroots, hanalyzed⟩ := rootOf?_of_analyzeAll h
  refine ⟨fun x => (hroots x).trans ?_, fun entry hentry x root => ?_, fun root =>
    mem_transformRoots, ?_, ?_⟩
  · rfl
  · obtain ⟨analysis, hanalysis⟩ := hanalyzed entry hentry
    exact root?_eq_some_iff hanalysis
  · intro root hroot outputDir files task failures hbelow hload module
    refine Task.notTranspiled_not_mem_load ?_ hload
    exact (transforms_optimization ..).2 fun _ => ⟨root, hroot, hbelow⟩
  · intro outputDir files task type source hfound htyped hinstalled hnowhere
    refine Task.load_of_not_transforms hfound htyped ?_
    rw [← Bool.not_eq_true, transforms_optimization]
    rintro htransforms
    obtain ⟨root, hroot, hbelow⟩ := htransforms hinstalled
    exact hnowhere root hroot hbelow

/-! ## A package that is listed -/

/-- A package with a source in TypeScript. -/
def withUi : FileTree where
  entries := .ofList [(["node_modules"], .directory), (["node_modules", "ui"], .directory),
    (["node_modules", "ui", "package.json"],
      .file "\x7b\"name\":\"ui\",\"main\":\"button.ts\"\x7d".toUTF8),
    (["node_modules", "ui", "button.ts"], .file "export const Button = 1;".toUTF8)]
  workingPlace := []

/-- Where the package is installed. -/
def uiRoot : Path := ⟨"/node_modules/ui"⟩

/-- A project that lists the package. -/
def listsUi : Surroundings where
  settings := ({ transpilePackages := some ["ui"] } : Options).settings ⟨"/"⟩
  files := withUi
  members := .empty

/-- The analysis of a module of the project. -/
def analysisOf (source : String) : Except (List Failure) Dependencies × FileTree :=
  analyzeAll .onFiles listsUi [.inline "app" source] .empty withUi

theorem exists_analysisOf {α : Type} {f : Dependencies → α} {a : α} {source : String}
    (h : (analysisOf source).1.toOption.map f = some a) :
    ∃ found after, analysisOf source = (.ok found, after) ∧ f found = a := by
  obtain ⟨found, hfound, rfl⟩ := Option.map_eq_some_iff.1 h
  revert hfound
  cases analysisOf source with
  | mk result after =>
    cases result with
    | error failures => nofun
    | ok found' => exact fun hfound => ⟨found', after, rfl, congrArg f (Option.some.inj hfound)⟩

/-- A module that imports the package by its name, and a part of it. -/
def importsUi : String := "import 'ui'; import \x7b Button \x7d from 'ui/button';"

/-- Where a module imports the package by its name, its sources are
transpiled. -/
theorem ui_transpiled : ∃ found after, analysisOf importsUi = (.ok found, after) ∧
    Transpiles listsUi [.inline "app" importsUi] withUi found ∧
    found.rootOf? "ui/button" = some uiRoot ∧
    uiRoot ∈ transformRoots listsUi.settings listsUi.members found := by
  have hvalue : (analysisOf importsUi).1.toOption.map
      (fun found => (found.rootOf? "ui", found.rootOf? "ui/button")) =
        some (some uiRoot, some uiRoot) := by decide +kernel
  obtain ⟨found, after, hfound, hroots⟩ := exists_analysisOf hvalue
  obtain ⟨hplain, hsubpath⟩ := Prod.mk.inj hroots
  have htranspiles := transpiles_of_analyzeAll hfound
  exact ⟨found, after, hfound, htranspiles, hsubpath,
    (htranspiles.given uiRoot).2 (Or.inr ⟨"ui", List.mem_singleton_self _, hplain⟩)⟩

/-- A module that imports the part alone. -/
def importsButton : String := "import \x7b Button \x7d from 'ui/button';"

/-- The loading of the source. -/
def buttonTask : Task where
  module := { id := "/node_modules/ui/button.ts" }

/-- **Where a module imports the package only by a subpath, its sources are
refused,** though the package is listed and known to be there, and nothing is
compiled. -/
theorem button_refused : ∃ found after, analysisOf importsButton = (.ok found, after) ∧
    found.rootOf? "ui/button" = some uiRoot ∧
    (Package.packageOf? "ui/button").any listsUi.settings.transpilePackages.contains ∧
    uiRoot ∉ transformRoots listsUi.settings listsUi.members found ∧
    buttonTask.path.startsWith uiRoot ∧
    buttonTask.load (optimization listsUi found ⟨"/dist"⟩ withUi) =
      .error [.notTranspiled (buttonTask.shown (optimization listsUi found ⟨"/dist"⟩ withUi))] ∧
    (optimize .onFiles listsUi found ⟨"/dist"⟩ withUi).1.toOption.isNone := by
  have hvalue : (analysisOf importsButton).1.toOption.map
      (fun found => (found.rootOf? "ui/button",
        transformRoots listsUi.settings listsUi.members found,
        (optimization listsUi found ⟨"/dist"⟩ withUi).settings.virtualModules.get?
          buttonTask.module.id,
        (optimize .onFiles listsUi found ⟨"/dist"⟩ withUi).1.toOption.isNone)) =
      some (some uiRoot, [], none, true) := by decide +kernel
  obtain ⟨found, after, hfound, hall⟩ := exists_analysisOf hvalue
  simp only [Prod.mk.injEq] at hall
  obtain ⟨hroot, hgiven, hserved, hfails⟩ := hall
  have htext : withUi.readText? ⟨buttonTask.module.id⟩ = some "export const Button = 1;" := by
    decide +kernel
  have htyped : Module.FileType.ofPath ⟨buttonTask.module.id⟩ = .ts := by decide +kernel
  -- the file can be read and is typed, so only the missing root has it refused
  have hscript : Task.found (optimization listsUi found ⟨"/dist"⟩ withUi)
      buttonTask.module.id = .script .ts "export const Button = 1;" := by
    have hfiles : (optimization listsUi found ⟨"/dist"⟩ withUi).files = withUi := rfl
    rw [Task.found, hserved]
    simp only [htyped, hfiles, htext, if_neg (by decide : ¬ Module.FileType.ts = .json)]
  refine ⟨found, after, hfound, hroot, by decide +kernel, by simp [hgiven], by decide +kernel, ?_,
    hfails⟩
  refine Task.load_of_not_transforms hscript rfl ?_
  have hinstalled : buttonTask.path.inInstalledPackages := by decide +kernel
  rw [← Bool.not_eq_true, transforms_optimization, hgiven]
  simp [hinstalled]

end DepBundle.Analysis
