import DepBundle.Analysis.Optimization
import DepBundle.Proofs.Graph.Task
import DepBundle.Proofs.Module.Key
import DepBundle.Proofs.Package.Offer
import DepBundle.Proofs.Package.Specifier
/-!
# Analysis — what is selected and what is bundled

Two lists keep a dependency out of the bundles: what the policy leaves to the
host, and what the runtime serves. Dependencies are selected by both, and the
compile of those selected goes by both again. The policy means the same in
the two places. What the runtime serves is left out of the selection by name
only, and of the compile with all that lies below it.

So a selected dependency is bundled unless it lies below a specifier of the
runtime, and then the module that stands in for it passes on what the host
has (`selected_of_optimizes`).
-/

namespace DepBundle.Analysis

open DepBundle.Graph DepBundle.Module

variable {s : Settings} {c : Compile.Settings} {dependency : String}
  {around : Graph.Surroundings}

/-- The settings of a compile of dependencies. -/
def CompilesFor (s : Settings) (c : Compile.Settings) : Prop :=
  ∃ outputDir roots entries current,
    c = (optimizationRequest s outputDir roots entries).settings current

/-- What the compile of some dependencies goes by. -/
def optimization (around : Surroundings) (found : Dependencies) (outputDir : Path)
    (files : FileTree) : Graph.Surroundings where
  files
  settings := (optimizationRequest around.settings outputDir
    (transformRoots around.settings around.members found)
    (standIns around.settings around.members around.files.workingDirectory outputDir
      found).values).settings files.workingDirectory

/-! ## The two lists -/

theorem optimizes_iff : s.optimizes dependency ↔
    dependency ≠ toolBindings ∧ dependency ∉ s.ignored ∧ ¬ s.external.isExternal dependency := by
  simp [Settings.optimizes, Settings.isIgnored, OrderedSet.contains, and_assoc]

/-- The compile leaves to the host what the policy does, and what the runtime
serves with all that lies below it. -/
theorem CompilesFor.isExternal_iff (hc : CompilesFor s c) : c.isExternal dependency ↔
    s.external.isExternal dependency ∨
      ∃ name ∈ s.ignored, dependency = name ∨ Package.IsSubpath dependency name := by
  obtain ⟨outputDir, roots, entries, current, rfl⟩ := hc
  rw [Compile.Settings.isExternal, Compile.Request.settings, optimizationRequest, Option.any_some,
    Package.isExternal_packages_iff, Package.ExternalPolicy.isExternal_iff, ← exists_or]
  refine exists_congr fun name => ?_
  have hmem : name ∈ (OrderedSet.ofList (s.external.all ++ s.ignored.toList)).toList ↔
      name ∈ s.external.all ∨ name ∈ s.ignored :=
    OrderedSet.mem_ofList.trans List.mem_append
  rw [hmem, or_and_right]

/-- **A selected dependency is left to the host** exactly where it lies below
what the runtime serves. -/
theorem CompilesFor.isExternal_iff_of_optimizes (hc : CompilesFor s c)
    (h : s.optimizes dependency) :
    c.isExternal dependency ↔ ∃ name ∈ s.ignored, Package.IsSubpath dependency name := by
  obtain ⟨-, hignored, hpolicy⟩ := optimizes_iff.1 h
  rw [hc.isExternal_iff, or_iff_right hpolicy]
  refine exists_congr fun name => and_congr_right fun hname => or_iff_right ?_
  rintro rfl
  exact hignored hname

/-- Nothing that is looked up among the installed packages is served from
memory. -/
theorem CompilesFor.not_served (hc : CompilesFor s c) (h : Package.isBare dependency) :
    c.virtualModules.contains dependency = false := by
  obtain ⟨outputDir, roots, entries, current, rfl⟩ := hc
  rw [Bool.eq_false_iff, Ne, OrderedMap.contains, Option.isSome_iff_exists]
  rintro ⟨source, hget⟩
  obtain ⟨entry, -, hentry⟩ := List.mem_map.1 (OrderedMap.mem_of_get?_ofList hget)
  obtain ⟨rfl, -⟩ := Prod.mk.inj hentry
  exact absurd (isVirtual_virtualId entry.name) (by simp [Package.not_isVirtual_of_isBare h])

/-- **What a dependency stands for** where the dependencies are compiled: the
module that the host has, or else what is installed. -/
theorem CompilesFor.ofSpecifier_eq (hc : CompilesFor s c) (h : isCandidate s dependency)
    (files : FileTree) (importer : Option String) (kind : ImportKind) :
    Resolved.ofSpecifier files c dependency importer kind false =
      if c.isExternal dependency then .ok (.external dependency)
      else
        match Resolution.Resolver.resolve files ⟨s.platform, s.cwd⟩
          ((importer.filter (!isVirtual ·)).map Path.mk) dependency kind false with
        | .ok path => .ok (.ofFile files path)
        | .error _ => .error (.notFound dependency) := by
  obtain ⟨⟨hbare, hhost⟩, -⟩ : (_ ∧ _) ∧ _ := by simpa [isCandidate] using h
  rw [Resolved.ofSpecifier, hc.not_served hbare, Package.not_isVirtual_of_isBare hbare,
    Package.not_isUrl_of_isBare hbare, hhost]
  obtain ⟨outputDir, roots, entries, current, rfl⟩ := hc
  simp only [Bool.false_or]
  rfl

/-! ## The stand-in -/

/-- A stand-in asks for what its dependency stands for. -/
theorem script_synthesize (around : Graph.Surroundings) (task : Task)
    (bindings : Package.Bindings) {target : Resolved}
    (h : Resolved.ofSpecifier around.files around.settings dependency (some task.module.id)
      .statement false = .ok target) :
    ∃ loaded, task.script around .js (Package.synthesize dependency bindings) = .ok loaded ∧
      loaded.imports = [(bindings.request dependency,
        if Task.isIdle around (bindings.request dependency) target then none
        else some target)] := by
  obtain ⟨program, hparse, hscan⟩ := Package.scan_synthesize (Package.untyped_of_js task.path)
    dependency bindings around.settings.treeshake
  have hrequest : (bindings.request dependency).specifier = dependency ∧
      (bindings.request dependency).kind = .statement := by
    unfold Package.Bindings.request
    split
    · exact ⟨rfl, rfl⟩
    · split <;> exact ⟨rfl, rfl⟩
  have hresolve : task.resolveAll around [bindings.request dependency] = .ok ([target], []) := by
    simp [Task.resolveAll, hrequest, h, Except.toOption]
  have hplain : task.plain around .js (Package.synthesize dependency bindings) =
      .ok (Package.synthesize dependency bindings, FileType.js.dialect task.path) := rfl
  refine ⟨task.scanned around .js (Package.synthesize dependency bindings)
    (Scan.ofProgram (Package.synthesize dependency bindings) program around.settings.treeshake)
    [target] [], ?_, ?_⟩
  · simp only [Task.script_eq, hplain, Task.scan?, hparse, Option.map_some, hscan.records, hresolve]
  · simp [Task.scanned, hscan.records]

/-- A stand-in asks for nothing only where nothing is read from its
dependency. -/
theorem eq_none_of_isIdle {bindings : Package.Bindings} {target : Resolved}
    (h : Task.isIdle around (bindings.request dependency) target) : bindings = .none := by
  simp only [Task.isIdle, Bool.and_eq_true] at h
  have hplain : (bindings.request dependency).isPlain := h.1.1.2
  cases bindings with
  | all => exact absurd hplain Bool.false_ne_true
  | named names =>
    rw [Package.Bindings.request] at hplain
    split at hplain
    · rename_i hempty
      exact congrArg Package.Bindings.named (OrderedSet.ext_toList (List.isEmpty_iff.1 hempty))
    · exact absurd hplain Bool.false_ne_true

/-- **A stand-in for what is left to the host passes on what the host has.** -/
theorem CompilesFor.load_of_isExternal (hc : CompilesFor s c) (h : isCandidate s dependency)
    (hexternal : c.isExternal dependency) (files : FileTree) (task : Task)
    (bindings : Package.Bindings) (hfound : Task.found ⟨files, c⟩ task.module.id =
      .script .js (Package.synthesize dependency bindings)) :
    ∃ loaded, task.load ⟨files, c⟩ = .ok loaded ∧
      loaded.imports = [(bindings.request dependency, some (.external dependency))] := by
  have hstands := hc.ofSpecifier_eq h files (some task.module.id) .statement
  rw [if_pos hexternal] at hstands
  obtain ⟨loaded, hloaded, himports⟩ := script_synthesize ⟨files, _⟩ task bindings hstands
  refine ⟨loaded, ?_, himports.trans ?_⟩
  · rw [Task.load_eq, hfound]
    exact hloaded
  · simp [Task.isIdle, Resolved.external]

/-! ## What becomes of a selected dependency -/

/-- What becomes of a selected dependency in a compile with the settings
`c`. -/
structure Selected (s : Settings) (c : Compile.Settings) (dependency : String) : Prop where
  /-- It is left to the host exactly where it lies below a specifier that the
  runtime serves. -/
  external_iff : c.isExternal dependency ↔ ∃ name ∈ s.ignored, Package.IsSubpath dependency name
  /-- If it is, then its stand-in passes on what the host has. -/
  left : isCandidate s dependency → c.isExternal dependency →
    ∀ files (task : Task) (bindings : Package.Bindings),
      Task.found ⟨files, c⟩ task.module.id =
        .script .js (Package.synthesize dependency bindings) →
      ∃ loaded, task.load ⟨files, c⟩ = .ok loaded ∧
        loaded.imports = [(bindings.request dependency, some (.external dependency))]
  /-- If it is not, then its stand-in passes on the file that is found for it;
  where nothing is read, loading that file may have no effect. -/
  bundled : isCandidate s dependency → ¬ c.isExternal dependency →
    ∀ files (task : Task) (bindings : Package.Bindings) path, isVirtual task.module.id →
      Task.found ⟨files, c⟩ task.module.id =
        .script .js (Package.synthesize dependency bindings) →
      Resolution.Resolver.resolve files ⟨s.platform, s.cwd⟩ none dependency .statement false =
        .ok path →
      ∃ loaded target, task.load ⟨files, c⟩ = .ok loaded ∧
        loaded.imports = [(bindings.request dependency, target)] ∧
        (target = some (.ofFile files path) ∨ bindings = .none ∧ target = none)

/-- **What is selected is bundled, but for what lies below a specifier of the
runtime.** -/
theorem selected_of_optimizes (s : Settings) (outputDir current : Path) (roots : List Path)
    (entries : List StandIn) (dependency : String) (h : s.optimizes dependency) :
    Selected s ((optimizationRequest s outputDir roots entries).settings current) dependency := by
  have hc : CompilesFor s ((optimizationRequest s outputDir roots entries).settings current) :=
    ⟨outputDir, roots, entries, current, rfl⟩
  refine ⟨hc.isExternal_iff_of_optimizes h, hc.load_of_isExternal, ?_⟩
  intro hdependency hnot files task bindings path hvirtual hfound hpath
  have hstands := hc.ofSpecifier_eq hdependency files (some task.module.id) .statement
  have himporter : (some task.module.id).filter (!isVirtual ·) = none := by simp [hvirtual]
  rw [if_neg hnot, himporter, Option.map_none, hpath] at hstands
  obtain ⟨loaded, hloaded, himports⟩ := script_synthesize ⟨files, _⟩ task bindings hstands
  refine ⟨loaded, _, ?_, himports, ?_⟩
  · rw [Task.load_eq, hfound]
    exact hloaded
  · split
    · rename_i hidle
      exact Or.inr ⟨eq_none_of_isIdle hidle, rfl⟩
    · exact Or.inl rfl

/-- A project with a file of its own for `react`. -/
def withShim : Settings :=
  ({ runtimeAliases := some (.ofList [("react", ⟨"shim.js"⟩)]) } : Options).settings ⟨"/app"⟩

/-- What the project has installed. -/
def withReactDom : FileTree where
  entries := .ofList [(["app"], .directory), (["app", "node_modules"], .directory),
    (["app", "node_modules", "react-dom"], .directory),
    (["app", "node_modules", "react-dom", "index.js"], .file "export const root = 1;".toUTF8)]
  workingPlace := ["app"]

/-- The compile of one dependency of the project, of which everything is
read. -/
def withShimCompile (dependency : String) : Graph.Surroundings where
  files := withReactDom
  settings := (optimizationRequest withShim ⟨"dist"⟩ []
    [⟨"deps/it", Package.synthesize dependency .all⟩]).settings ⟨"/app"⟩

/-- The loading of its stand-in. -/
def standInTask : Task where
  module := { id := virtualId "deps/it" }
  isEntry := true

theorem found_standInTask (dependency : String) :
    Task.found (withShimCompile dependency) standInTask.module.id =
      .script .js (Package.synthesize dependency .all) := by
  rw [Task.found]
  rfl

/-- A package with a name that only begins like a specifier of the runtime is
bundled. -/
theorem reactDom_bundled : withShim.optimizes "react-dom" ∧ ∃ loaded,
    standInTask.load (withShimCompile "react-dom") = .ok loaded ∧
      loaded.imports = [(Package.Bindings.all.request "react-dom",
        some (.ofFile withReactDom ⟨"/app/node_modules/react-dom/index.js"⟩))] := by
  have hoptimizes : withShim.optimizes "react-dom" := by decide +kernel
  have hselected : Selected withShim (withShimCompile "react-dom").settings "react-dom" :=
    selected_of_optimizes withShim ⟨"dist"⟩ ⟨"/app"⟩ [] _ "react-dom" hoptimizes
  have hpath : Resolution.Resolver.resolve withReactDom ⟨withShim.platform, withShim.cwd⟩ none
      "react-dom" .statement false = .ok ⟨"/app/node_modules/react-dom/index.js"⟩ := by
    decide +kernel
  obtain ⟨loaded, target, hloaded, himports, htarget⟩ := hselected.bundled (by decide +kernel)
    (by decide +kernel) withReactDom standInTask .all _ (isVirtual_virtualId _)
    (found_standInTask _) hpath
  obtain rfl := htarget.resolve_right fun h => nomatch h.1
  exact ⟨hoptimizes, loaded, hloaded, himports⟩

/-- **A subpath of what the runtime serves is selected and not bundled.** -/
theorem reactRuntime_left : withShim.optimizes "react/jsx-runtime" ∧
    isCandidate withShim "react/jsx-runtime" ∧
    (withShimCompile "react/jsx-runtime").settings.isExternal "react/jsx-runtime" ∧ ∃ loaded,
      standInTask.load (withShimCompile "react/jsx-runtime") = .ok loaded ∧
        loaded.imports = [(Package.Bindings.all.request "react/jsx-runtime",
          some (.external "react/jsx-runtime"))] := by
  have hc : CompilesFor withShim (withShimCompile "react/jsx-runtime").settings :=
    ⟨⟨"dist"⟩, [], _, ⟨"/app"⟩, rfl⟩
  have hcandidate : isCandidate withShim "react/jsx-runtime" := by decide +kernel
  have hexternal : (withShimCompile "react/jsx-runtime").settings.isExternal
      "react/jsx-runtime" := by
    decide +kernel
  exact ⟨by decide +kernel, hcandidate, hexternal, hc.load_of_isExternal hcandidate hexternal
    withReactDom standInTask .all (found_standInTask _)⟩

end DepBundle.Analysis
