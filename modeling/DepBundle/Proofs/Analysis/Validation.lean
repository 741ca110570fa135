import DepBundle.Analysis.Validation
import DepBundle.Proofs.Data.Ordered
import DepBundle.Proofs.Package.Specifier
/-!
# Analysis — what validation tells apart

Every artifact of an entry is tried. One that does not load is invalid, and
its dependency is demoted; one that loads is where its dependency is resolved
to. Both tables are read off the tries (`mem_invalidArtifacts`,
`contains_resolvedFiles`, `mem_demoted`). They go by different names, though:
a scoped dependency is demoted as its package, and any other as written. So
the tables agree on every dependency but those of a scoped package that has
artifacts of either kind (`validate_splits`).
-/

namespace DepBundle.Analysis

variable {loads : Path → Bool} {members : Workspace.Members} {files : List Output.File}
  {dependencyOf : OrderedMap String String} {outputDir : Path} {v : Validation}
  {f p name : String}

/-- Where the artifact in a file is loaded from. -/
def artifactFile (outputDir : Path) (f : String) : Path := (outputDir.join ⟨f⟩).normalize

/-- Whether the artifact in a file is tried: it is that of an entry, and
nothing loads it later. -/
def Tried (files : List Output.File) (f : String) : Prop :=
  ∃ c ∈ Output.chunks files, c.isStaticEntry ∧ c.fileName = f

/-- No two files are artifacts of one dependency. -/
def OneToOne (dependencyOf : OrderedMap String String) : Prop :=
  ∀ f g p, dependencyOf.get? f = some p → dependencyOf.get? g = some p → f = g

/-! ## One artifact -/

namespace Validation

variable {path : Path} {dependency : Option String} {loaded : Bool}

theorem mem_invalidArtifacts_note : name ∈ (v.note f path dependency loaded).invalidArtifacts ↔
    name ∈ v.invalidArtifacts ∨ loaded = false ∧ f = name := by
  cases loaded <;> cases dependency <;> simp [note, or_comm, eq_comm]

theorem get?_resolvedFiles_note :
    (v.note f path dependency loaded).resolvedFiles.get? name =
      if loaded ∧ dependency = some name then some path else v.resolvedFiles.get? name := by
  cases loaded with
  | false => cases dependency <;> simp [note]
  | true =>
    cases dependency with
    | none => simp [note]
    | some p => simp [note, eq_comm (a := name)]

theorem contains_resolvedFiles_note :
    (v.note f path dependency loaded).resolvedFiles.contains name ↔
      v.resolvedFiles.contains name ∨ loaded ∧ dependency = some name := by
  rw [OrderedMap.contains, OrderedMap.contains, get?_resolvedFiles_note]
  split
  · rename_i hresolved
    simp [hresolved]
  · rename_i hother
    simp [hother]

theorem mem_demoted_note : name ∈ (v.note f path dependency loaded).demoted ↔
    name ∈ v.demoted ∨ loaded = false ∧ ∃ p, dependency = some p ∧ Package.identity p = name := by
  cases loaded <;> cases dependency <;> simp [note, or_comm, eq_comm]

end Validation

/-! ## All artifacts -/

/-- What holds after all tries, where a try adds to it by whether the artifact
loads and by its dependency. -/
theorem validate_iff {P : Validation → Prop} {Q : String → Bool → Option String → Prop}
    (hnote : ∀ v f path dependency loaded,
      P (v.note f path dependency loaded) ↔ P v ∨ Q f loaded dependency)
    (hstart : ¬ P { members }) :
    P (validate loads members files dependencyOf outputDir) ↔
      ∃ f, Tried files f ∧ Q f (loads (artifactFile outputDir f)) (dependencyOf.get? f) := by
  have hfold := foldl_iff (P := P)
    (Q := fun c : Output.Chunk =>
      Q c.fileName (loads (artifactFile outputDir c.fileName)) (dependencyOf.get? c.fileName))
    (fun v c => hnote v c.fileName (artifactFile outputDir c.fileName) _ _)
    ((Output.chunks files).filter (·.isStaticEntry)) { members }
  rw [or_iff_right hstart] at hfold
  refine hfold.trans ⟨?_, ?_⟩
  · rintro ⟨c, hc, hq⟩
    obtain ⟨hc, hstatic⟩ := List.mem_filter.1 hc
    exact ⟨c.fileName, ⟨c, hc, hstatic, rfl⟩, hq⟩
  · rintro ⟨f, ⟨c, hc, hstatic, rfl⟩, hq⟩
    exact ⟨c, List.mem_filter.2 ⟨hc, hstatic⟩, hq⟩

/-- **An artifact is invalid where it is tried and does not load.** -/
theorem mem_invalidArtifacts :
    f ∈ (validate loads members files dependencyOf outputDir).invalidArtifacts ↔
      Tried files f ∧ loads (artifactFile outputDir f) = false := by
  rw [validate_iff (P := fun v => f ∈ v.invalidArtifacts)
    (fun _ _ _ _ _ => Validation.mem_invalidArtifacts_note) List.not_mem_nil]
  constructor
  · rintro ⟨f, htried, hfails, rfl⟩
    exact ⟨htried, hfails⟩
  · rintro ⟨htried, hfails⟩
    exact ⟨f, htried, hfails, rfl⟩

/-- **A dependency is resolved where an artifact of it is tried and loads.** -/
theorem contains_resolvedFiles :
    (validate loads members files dependencyOf outputDir).resolvedFiles.contains p ↔
      ∃ f, Tried files f ∧ loads (artifactFile outputDir f) ∧ dependencyOf.get? f = some p :=
  validate_iff (P := fun v => v.resolvedFiles.contains p)
    (fun _ _ _ _ _ => Validation.contains_resolvedFiles_note)
    (by simp [OrderedMap.contains])

/-- **It is resolved to where such an artifact was loaded from.** -/
theorem exists_of_get?_resolvedFiles {path : Path}
    (h : (validate loads members files dependencyOf outputDir).resolvedFiles.get? p = some path) :
    ∃ f, Tried files f ∧ loads (artifactFile outputDir f) ∧ dependencyOf.get? f = some p ∧
      path = artifactFile outputDir f := by
  revert h
  refine List.foldlRecOn (motive := fun v : Validation => v.resolvedFiles.get? p = some path → _)
    ((Output.chunks files).filter (·.isStaticEntry)) _ ?_ ?_
  · intro hpath
    cases hpath
  · intro v ih c hc hpath
    obtain ⟨hc, hstatic⟩ := List.mem_filter.1 hc
    rw [Validation.get?_resolvedFiles_note] at hpath
    split at hpath
    · rename_i hresolved
      exact ⟨c.fileName, ⟨c, hc, hstatic, rfl⟩, hresolved.1, hresolved.2,
        (Option.some.inj hpath).symm⟩
    · exact ih hpath

/-- **A dependency is demoted where an artifact of it is invalid,** under the
name it is left to the host by. -/
theorem mem_demoted :
    name ∈ (validate loads members files dependencyOf outputDir).demoted ↔
      ∃ f ∈ (validate loads members files dependencyOf outputDir).invalidArtifacts,
        ∃ p, dependencyOf.get? f = some p ∧ Package.identity p = name := by
  rw [validate_iff (P := fun v => name ∈ v.demoted)
    (fun _ _ _ _ _ => Validation.mem_demoted_note) List.not_mem_nil]
  simp only [mem_invalidArtifacts, and_assoc]

/-! ## The two tables -/

/-- **What validation tells apart.** -/
structure Splits (loads : Path → Bool) (files : List Output.File)
    (dependencyOf : OrderedMap String String) (outputDir : Path) (v : Validation) : Prop where
  /-- Invalid are the artifacts of entries that were tried and do not load. -/
  invalid_iff : ∀ f, f ∈ v.invalidArtifacts ↔
    (∃ c ∈ Output.chunks files, c.isStaticEntry ∧ c.fileName = f) ∧
      loads (artifactFile outputDir f) = false
  /-- The dependencies of all others are resolved, and no other ones are. -/
  resolved_iff : ∀ p, v.resolvedFiles.contains p ↔
    ∃ c ∈ Output.chunks files, c.isStaticEntry ∧ c.fileName ∉ v.invalidArtifacts ∧
      dependencyOf.get? c.fileName = some p
  /-- They are resolved to where these were loaded from. -/
  resolved_at : ∀ p path, v.resolvedFiles.get? p = some path →
    ∃ c ∈ Output.chunks files, c.isStaticEntry ∧ c.fileName ∉ v.invalidArtifacts ∧
      dependencyOf.get? c.fileName = some p ∧ path = artifactFile outputDir c.fileName
  /-- The dependencies of those that are invalid are demoted, each under the
  name it is left to the host by. -/
  demoted_iff : ∀ name, name ∈ v.demoted ↔
    ∃ f ∈ v.invalidArtifacts, ∃ p, dependencyOf.get? f = some p ∧ Package.identity p = name
  /-- Where every artifact has a dependency of its own, one that is resolved is
  demoted only if it is scoped, and then exactly where an artifact of another
  dependency on its package is invalid. -/
  both_iff : OneToOne dependencyOf → ∀ p, v.resolvedFiles.contains p →
    (p ∈ v.demoted ∨ Package.identity p ∈ v.demoted ↔
      Package.IsScoped p ∧ ∃ f ∈ v.invalidArtifacts, ∃ q, dependencyOf.get? f = some q ∧
        q ≠ p ∧ Package.identity q = Package.identity p)

/-- What loads is not invalid. -/
theorem notMem_invalidArtifacts (h : loads (artifactFile outputDir f)) :
    f ∉ (validate loads members files dependencyOf outputDir).invalidArtifacts := by
  intro hinvalid
  rw [(mem_invalidArtifacts.1 hinvalid).2] at h
  cases h

/-- Where every artifact has a dependency of its own, none that is resolved is
that of an invalid artifact. -/
theorem ne_of_oneToOne (hone : OneToOne dependencyOf)
    (hp : (validate loads members files dependencyOf outputDir).resolvedFiles.contains p)
    (hf : f ∈ (validate loads members files dependencyOf outputDir).invalidArtifacts) {q : String}
    (hq : dependencyOf.get? f = some q) : q ≠ p := by
  rintro rfl
  obtain ⟨g, -, hloads, hg⟩ := contains_resolvedFiles.1 hp
  obtain rfl := hone f g _ hq hg
  exact notMem_invalidArtifacts hloads hf

/-- **Validation tells apart what loads and what does not,** but for the
dependencies on one scoped package. -/
theorem validate_splits (loads : Path → Bool) (members : Workspace.Members)
    (files : List Output.File) (dependencyOf : OrderedMap String String) (outputDir : Path) :
    Splits loads files dependencyOf outputDir
      (validate loads members files dependencyOf outputDir) where
  invalid_iff _ := mem_invalidArtifacts
  resolved_iff p := by
    rw [contains_resolvedFiles]
    constructor
    · rintro ⟨f, ⟨c, hc, hstatic, rfl⟩, hloads, hp⟩
      exact ⟨c, hc, hstatic, notMem_invalidArtifacts hloads, hp⟩
    · rintro ⟨c, hc, hstatic, hvalid, hp⟩
      have htried : Tried files c.fileName := ⟨c, hc, hstatic, rfl⟩
      refine ⟨c.fileName, htried, ?_, hp⟩
      by_contra hfails
      exact hvalid (mem_invalidArtifacts.2 ⟨htried, Bool.eq_false_iff.2 hfails⟩)
  resolved_at p path hpath := by
    obtain ⟨f, ⟨c, hc, hstatic, rfl⟩, hloads, hp, rfl⟩ := exists_of_get?_resolvedFiles hpath
    exact ⟨c, hc, hstatic, notMem_invalidArtifacts hloads, hp, rfl⟩
  demoted_iff _ := mem_demoted
  both_iff hone p hp := by
    constructor
    · -- either way the package of `p` is demoted, for an artifact of another dependency
      intro hboth
      have hdemoted : ∃ f ∈ (validate loads members files dependencyOf outputDir).invalidArtifacts,
          ∃ q, dependencyOf.get? f = some q ∧ Package.identity q = Package.identity p := by
        rcases hboth with h | h
        · obtain ⟨f, hf, q, hq, rfl⟩ := mem_demoted.1 h
          exact ⟨f, hf, q, hq, Package.identity_identity.symm⟩
        · exact mem_demoted.1 h
      obtain ⟨f, hf, q, hq, hsame⟩ := hdemoted
      have hne : q ≠ p := ne_of_oneToOne hone hp hf hq
      refine ⟨?_, f, hf, q, hq, hne, hsame⟩
      by_contra hscoped
      have hq' : ¬ Package.IsScoped q := by
        rwa [← Package.isScoped_identity_iff, hsame, Package.isScoped_identity_iff]
      rw [Package.identity_of_not_isScoped hscoped, Package.identity_of_not_isScoped hq'] at hsame
      exact hne hsame
    · rintro ⟨-, f, hf, q, hq, -, hsame⟩
      exact Or.inr (mem_demoted.2 ⟨f, hf, q, hq, hsame⟩)

/-! ## Dependencies on one package -/

/-- The artifacts of two dependencies on one package. -/
def artifactsOf (package subpath : String) : List (String × String) :=
  [("deps/" ++ Package.flatten package ++ ".js", package),
    ("deps/" ++ Package.flatten subpath ++ ".js", subpath)]

/-- Their chunks. -/
def chunksOf (artifacts : List (String × String)) : List Output.File :=
  artifacts.map fun a => .chunk { fileName := a.1, isEntry := true }

/-- Their validation, where the one of the subpath does not load. -/
def validationOf (package subpath : String) : Validation :=
  validate (fun path => path.text != "/app/dist/deps/" ++ Package.flatten subpath ++ ".js") .empty
    (chunksOf (artifactsOf package subpath)) (.ofList (artifactsOf package subpath)) ⟨"/app/dist"⟩

theorem oneToOne_artifactsOf {package subpath : String} (hne : package ≠ subpath) :
    OneToOne (.ofList (artifactsOf package subpath)) := by
  intro f g p hf hg
  have hf' := OrderedMap.mem_of_get?_ofList hf
  have hg' := OrderedMap.mem_of_get?_ofList hg
  simp only [artifactsOf, List.mem_cons, Prod.mk.injEq, List.not_mem_nil, or_false] at hf' hg'
  rcases hf' with ⟨rfl, rfl⟩ | ⟨rfl, rfl⟩ <;> rcases hg' with ⟨rfl, hp⟩ | ⟨rfl, hp⟩
  · rfl
  · exact absurd hp hne
  · exact absurd hp.symm hne
  · rfl

/-- Without a scope, a package stays resolved where a subpath of it is
demoted. -/
theorem lodash_resolved : OneToOne (.ofList (artifactsOf "lodash" "lodash/fp")) ∧
    (validationOf "lodash" "lodash/fp").resolvedFiles.contains "lodash" ∧
    "lodash/fp" ∈ (validationOf "lodash" "lodash/fp").demoted ∧
    ¬ ("lodash" ∈ (validationOf "lodash" "lodash/fp").demoted ∨
      Package.identity "lodash" ∈ (validationOf "lodash" "lodash/fp").demoted) := by
  have hone : OneToOne (.ofList (artifactsOf "lodash" "lodash/fp")) :=
    oneToOne_artifactsOf (by decide)
  have hresolved : (validationOf "lodash" "lodash/fp").resolvedFiles.contains "lodash" := by
    decide +kernel
  have hsplits : Splits _ _ _ _ (validationOf "lodash" "lodash/fp") := validate_splits _ _ _ _ _
  refine ⟨hone, hresolved, by decide +kernel, ?_⟩
  rw [hsplits.both_iff hone "lodash" hresolved]
  exact fun hscoped => absurd hscoped.1 (by decide)

/-- **With a scope, a package is resolved and demoted** where the artifact of
a subpath of it does not load. -/
theorem ui_resolved_and_demoted : OneToOne (.ofList (artifactsOf "@acme/ui" "@acme/ui/button")) ∧
    (validationOf "@acme/ui" "@acme/ui/button").resolvedFiles.contains "@acme/ui" ∧
    "@acme/ui" ∈ (validationOf "@acme/ui" "@acme/ui/button").demoted :=
  ⟨oneToOne_artifactsOf (by decide), by decide +kernel, by decide +kernel⟩

end DepBundle.Analysis
