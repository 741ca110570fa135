import DepBundle.Analysis.Loader
import DepBundle.Proofs.Path.Reduced
import Mathlib.Data.Nat.Digits.Lemmas
/-!
# Analysis — loading decides whether an artifact loads

An artifact loads just when every file it leads to does (`Loader.load_decides`),
and for that it does not matter in which order the files import.

The search calls a file that was come to before a success, even while that file
is still being looked at. So a success says of each file it came to only what
lies within the file, and that what it imports was come to as well (`Met`); that
all of them load is read off when the search is over (`Runs.closed`). A failure
lies with some file that the start leads to (`Runs.refutes`).

The search is described twice. `Runs` has the calls that are made, without a
bound on how many there are. A call goes deeper only with one more file that
can be read, and there are fewer of those than the bound that `Loader.load` has
(`length_lt_chainLimit`), so what it answers is what the calls come to
(`runs_loadChain`).
-/

namespace DepBundle.Analysis.Loader

variable {l l' : Loader} {start path file importer : Path} {visited visited' : List Path}
  {specifier : String} {specifiers : List String} {e : LoadFailure} {n : ℕ}

/-! ## What has to hold -/

/-- Where a relative specifier leads from the file that names it. -/
def target (importer : Path) (specifier : String) : Path :=
  (importer.directory.join ⟨specifier⟩).normalize

/-- Whether something that is no file of the artifact is served where a file
runs: by the host, by the runtime, or by a package that is installed for it. -/
def Serves (l : Loader) (importer : Path) (specifier : String) : Prop :=
  Package.isHostModule specifier ∨ l.provided.contains specifier ∨
    (l.resolver.resolve l.files (some importer) specifier .statement false).isOk

/-- Whether there is what a file imports. -/
def Finds (l : Loader) (importer : Path) (specifier : String) : Prop :=
  if isRelative specifier then l.files.isFile (target importer specifier) = true
  else l.Serves importer specifier

/-- **What loading asks of a file:** it is there and can be parsed, and there is
all that its statements import from. -/
def Loads (l : Loader) (file : Path) : Prop :=
  ∃ source program, l.files.readText? file = some source ∧
    Syntax.Program.parse? (Module.dialectOf file) source = some program ∧
    ∀ specifier ∈ Module.staticImports program, l.Finds file specifier

/-- The files that a file leads to by relative imports. Texts that name the same
components are one file, the one that was begun with. -/
inductive LeadsTo (l : Loader) (start : Path) : Path → Prop where
  | start : LeadsTo l start start
  | step {file : Path} {specifiers : List String} {specifier : String}
      (led : LeadsTo l start file) (reads : l.imports file = .ok specifiers)
      (imported : specifier ∈ specifiers) (relative : isRelative specifier)
      (other : (target file specifier).same start = false) :
      LeadsTo l start (target file specifier)

theorem imports_eq_ok_iff : l.imports file = .ok specifiers ↔
    ∃ source program, l.files.readText? file = some source ∧
      Syntax.Program.parse? (Module.dialectOf file) source = some program ∧
      Module.staticImports program = specifiers := by
  unfold imports
  cases l.files.readText? file with
  | none => simp [throw, throwThe, MonadExceptOf.throw]
  | some source =>
    cases hparse : Syntax.Program.parse? (Module.dialectOf file) source with
    | none => simp [hparse, throw, throwThe, MonadExceptOf.throw]
    | some program => simp [hparse, pure, Except.pure]

theorem loads_iff : l.Loads file ↔
    ∃ specifiers, l.imports file = .ok specifiers ∧
      ∀ specifier ∈ specifiers, l.Finds file specifier := by
  constructor
  · rintro ⟨source, program, hread, hparse, hfinds⟩
    exact ⟨_, imports_eq_ok_iff.2 ⟨source, program, hread, hparse, rfl⟩, hfinds⟩
  · rintro ⟨specifiers, himports, hfinds⟩
    obtain ⟨source, program, hread, hparse, rfl⟩ := imports_eq_ok_iff.1 himports
    exact ⟨source, program, hread, hparse, hfinds⟩

/-- What a call is about. -/
inductive Job where
  /-- A file, and whatever it leads to. -/
  | file (path : Path)
  /-- The imports of a file that are left. -/
  | imports (importer : Path) (specifiers : List String)

/-- **The calls of the search,** with the files come to so far and what each
call comes to. A derivation is a search that ends. -/
inductive Runs (l : Loader) : Job → List Path → Except LoadFailure (List Path) → Prop where
  /-- The file was come to before. -/
  | again {path : Path} {visited : List Path} (seen : visited.any path.same) :
      Runs l (.file path) visited (.ok visited)
  /-- The file cannot be read or parsed. -/
  | unread {path : Path} {visited : List Path} {e : LoadFailure}
      (fresh : visited.any path.same = false) (fails : l.imports path = .error e) :
      Runs l (.file path) visited (.error e)
  /-- The file was come to, and its imports are next. -/
  | read {path : Path} {visited : List Path} {specifiers : List String}
      {r : Except LoadFailure (List Path)} (fresh : visited.any path.same = false)
      (reads : l.imports path = .ok specifiers)
      (rest : Runs l (.imports path specifiers) (path :: visited) r) :
      Runs l (.file path) visited r
  /-- No import is left. -/
  | done {importer : Path} {visited : List Path} :
      Runs l (.imports importer []) visited (.ok visited)
  /-- A relative import leads to no file. -/
  | missing {importer : Path} {specifier : String} {rest : List String} {visited : List Path}
      (relative : isRelative specifier)
      (absent : l.files.isFile (target importer specifier) = false) :
      Runs l (.imports importer (specifier :: rest)) visited
        (.error (.missingFile importer specifier))
  /-- A relative import leads to a file that does not load. -/
  | fails {importer : Path} {specifier : String} {rest : List String} {visited : List Path}
      {e : LoadFailure} (relative : isRelative specifier)
      (present : l.files.isFile (target importer specifier))
      (deeper : Runs l (.file (target importer specifier)) visited (.error e)) :
      Runs l (.imports importer (specifier :: rest)) visited (.error e)
  /-- A relative import leads to a file that loads. -/
  | follows {importer : Path} {specifier : String} {rest : List String}
      {visited visited' : List Path} {r : Except LoadFailure (List Path)}
      (relative : isRelative specifier)
      (present : l.files.isFile (target importer specifier))
      (deeper : Runs l (.file (target importer specifier)) visited (.ok visited'))
      (next : Runs l (.imports importer rest) visited' r) :
      Runs l (.imports importer (specifier :: rest)) visited r
  /-- Another import is served. -/
  | served {importer : Path} {specifier : String} {rest : List String} {visited : List Path}
      {r : Except LoadFailure (List Path)} (other : isRelative specifier = false)
      (serves : l.Serves importer specifier) (next : Runs l (.imports importer rest) visited r) :
      Runs l (.imports importer (specifier :: rest)) visited r
  /-- Another import is not served. -/
  | unserved {importer : Path} {specifier : String} {rest : List String} {visited : List Path}
      (other : isRelative specifier = false)
      (unserved : ¬ l.Serves importer specifier) :
      Runs l (.imports importer (specifier :: rest)) visited
        (.error (.missingPackage importer specifier))

variable {job : Job} {r r' : Except LoadFailure (List Path)}

/-- **The search comes to one answer.** -/
theorem Runs.deterministic (h : Runs l job visited r) (h' : Runs l job visited r') : r = r' := by
  -- what is found at a point leaves one rule to go on by
  induction h generalizing r' with
  | again seen => cases h' <;> simp_all
  | unread fresh fails => cases h' <;> simp_all
  | read fresh reads rest ih =>
    cases h' with
    | again seen => simp_all
    | unread _ fails => simp_all
    | read _ reads' rest' =>
      obtain rfl := Except.ok.inj (reads.symm.trans reads')
      exact ih rest'
  | done => cases h'; rfl
  | missing relative absent => cases h' <;> simp_all
  | fails relative present deeper ih =>
    cases h' with
    | missing _ absent => simp_all
    | fails _ _ deeper' => exact ih deeper'
    | follows _ _ deeper' _ => cases ih deeper'
    | served other => simp_all
    | unserved other => simp_all
  | follows relative present deeper next ihdeeper ihnext =>
    cases h' with
    | missing _ absent => simp_all
    | fails _ _ deeper' => cases ihdeeper deeper'
    | follows _ _ deeper' next' =>
      obtain rfl := Except.ok.inj (ihdeeper deeper')
      exact ihnext next'
    | served other => simp_all
    | unserved other => simp_all
  | served other serves next ih =>
    cases h' with
    | served _ _ next' => exact ih next'
    | unserved _ unserved => exact absurd serves unserved
    | _ => simp_all
  | unserved other unserved =>
    cases h' with
    | served _ serves => exact absurd serves unserved
    | unserved => rfl
    | _ => simp_all

/-! ## What a success says -/

/-- There is what a file imports, and where that is a file it was come to. -/
structure Met (l : Loader) (visited : List Path) (importer : Path) (specifier : String) : Prop where
  finds : l.Finds importer specifier
  visited : isRelative specifier → visited.any (target importer specifier).same

/-- All imports of a file are met. -/
def Complete (l : Loader) (visited : List Path) (file : Path) : Prop :=
  ∃ specifiers, l.imports file = .ok specifiers ∧
    ∀ specifier ∈ specifiers, Met l visited file specifier

/-- What a call was made for was done. -/
def Job.Done (l : Loader) (visited : List Path) : Job → Prop
  | .file path => visited.any path.same
  | .imports importer specifiers => ∀ specifier ∈ specifiers, Met l visited importer specifier

theorem any_same_of_subset (hsub : visited ⊆ visited') (h : visited.any path.same) :
    visited'.any path.same := by
  obtain ⟨v, hv, hsame⟩ := List.any_eq_true.1 h
  exact List.any_eq_true.2 ⟨v, hsub hv, hsame⟩

theorem Met.mono (hsub : visited ⊆ visited') (h : Met l visited importer specifier) :
    Met l visited' importer specifier :=
  ⟨h.finds, fun hrelative => any_same_of_subset hsub (h.visited hrelative)⟩

theorem Complete.mono (hsub : visited ⊆ visited') (h : Complete l visited file) :
    Complete l visited' file := by
  obtain ⟨specifiers, himports, hmet⟩ := h
  exact ⟨specifiers, himports, fun s hs => (hmet s hs).mono hsub⟩

/-- **What a call that succeeds leaves:** the files come to before are still
there, and every file that is new is complete. -/
structure Extends (l : Loader) (visited visited' : List Path) : Prop where
  subset : visited ⊆ visited'
  complete : ∀ file ∈ visited', file ∈ visited ∨ Complete l visited' file

theorem Extends.refl (l : Loader) (visited : List Path) : Extends l visited visited :=
  ⟨fun _ h => h, fun _ h => Or.inl h⟩

theorem Extends.trans {visited'' : List Path} (h : Extends l visited visited')
    (h' : Extends l visited' visited'') : Extends l visited visited'' := by
  refine ⟨fun v hv => h'.subset (h.subset hv), fun file hfile => ?_⟩
  rcases h'.complete file hfile with hfile | hcomplete
  · exact (h.complete file hfile).imp_right fun hcomplete => hcomplete.mono h'.subset
  · exact Or.inr hcomplete

/-- **A success leaves nothing undone.** -/
theorem Runs.done_of_ok (h : Runs l job visited r) : ∀ visited', r = .ok visited' →
    Extends l visited visited' ∧ job.Done l visited' := by
  induction h with
  | again seen =>
    rintro _ ⟨⟩
    exact ⟨Extends.refl _ _, seen⟩
  | @read path visited specifiers r fresh reads rest ih =>
    intro visited' hr
    obtain ⟨hextends, hmet⟩ := ih visited' hr
    have hpath : path ∈ visited' := hextends.subset (List.mem_cons_self ..)
    refine ⟨⟨fun v hv => hextends.subset (List.mem_cons_of_mem _ hv), fun file hfile => ?_⟩, ?_⟩
    · -- the file itself is complete now that its imports are met
      rcases hextends.complete file hfile with hmem | hcomplete
      · rcases List.mem_cons.1 hmem with rfl | hmem
        · exact Or.inr ⟨specifiers, reads, hmet⟩
        · exact Or.inl hmem
      · exact Or.inr hcomplete
    · exact List.any_eq_true.2 ⟨path, hpath, beq_self_eq_true _⟩
  | done =>
    rintro _ ⟨⟩
    exact ⟨Extends.refl _ _, fun _ hs => absurd hs List.not_mem_nil⟩
  | follows relative present deeper next ihdeeper ihnext =>
    intro visited' hr
    obtain ⟨hfirst, hseen⟩ := ihdeeper _ rfl
    obtain ⟨hrest, hmet⟩ := ihnext visited' hr
    refine ⟨hfirst.trans hrest, fun s hs => ?_⟩
    rcases List.mem_cons.1 hs with rfl | hs
    · refine ⟨?_, fun _ => any_same_of_subset hrest.subset hseen⟩
      rw [Finds, if_pos relative]
      exact present
    · exact hmet s hs
  | served other serves next ih =>
    intro visited' hr
    obtain ⟨hextends, hmet⟩ := ih visited' hr
    refine ⟨hextends, fun s hs => ?_⟩
    rcases List.mem_cons.1 hs with rfl | hs
    · refine ⟨?_, fun hrelative => absurd hrelative (by simp [other])⟩
      rw [Finds, if_neg (by simp [other])]
      exact serves
    · exact hmet s hs
  | _ => intro _ hr; cases hr

/-! ## What is come to -/

/-- What calls are made for when a search begins at `start`: all files come to
are led to, the start is the first of them, and the call is for one more that
is led to, or for imports of one. -/
structure Within (l : Loader) (start : Path) (job : Job) (visited : List Path) : Prop where
  led : ∀ v ∈ visited, LeadsTo l start v
  started : start ∈ visited ∨ job = .file start
  job : match job with
    | .file path => LeadsTo l start path ∨ visited.any path.same
    | .imports importer specifiers => LeadsTo l start importer ∧
      ∃ all, l.imports importer = .ok all ∧ specifiers ⊆ all

/-- The call that a search begins with. -/
theorem within_start (l : Loader) (start : Path) : Within l start (.file start) [] :=
  ⟨fun _ hv => absurd hv List.not_mem_nil, Or.inr rfl, Or.inl .start⟩

/-- A file that is looked at is led to. -/
theorem Within.fresh (h : Within l start (.file path) visited)
    (hfresh : visited.any path.same = false) : LeadsTo l start path :=
  h.job.resolve_right (by simp [hfresh])

theorem Within.read (h : Within l start (.file path) visited)
    (hfresh : visited.any path.same = false) (hreads : l.imports path = .ok specifiers) :
    Within l start (.imports path specifiers) (path :: visited) := by
  have hpath := h.fresh hfresh
  refine ⟨fun v hv => ?_, Or.inl ?_, hpath, specifiers, hreads, fun _ hs => hs⟩
  · rcases List.mem_cons.1 hv with rfl | hv
    · exact hpath
    · exact h.led v hv
  · rcases h.started with hmem | hjob
    · exact List.mem_cons_of_mem _ hmem
    · rw [Job.file.inj hjob]
      exact List.mem_cons_self ..

/-- A relative import of a file that is led to is led to, or was begun with. -/
theorem Within.target {rest : List String}
    (h : Within l start (.imports importer (specifier :: rest)) visited)
    (hrelative : isRelative specifier) :
    Within l start (.file (target importer specifier)) visited := by
  obtain ⟨himporter, all, hall, hsub⟩ := h.job
  have hstart : start ∈ visited := h.started.resolve_right nofun
  refine ⟨h.led, Or.inl hstart, ?_⟩
  cases hsame : (Loader.target importer specifier).same start with
  | true => exact Or.inr (List.any_eq_true.2 ⟨start, hstart, hsame⟩)
  | false => exact Or.inl (himporter.step hall (hsub (List.mem_cons_self ..)) hrelative hsame)

theorem Within.rest {rest : List String}
    (h : Within l start (.imports importer (specifier :: rest)) visited)
    (hsub : visited ⊆ visited') (hled : ∀ v ∈ visited', LeadsTo l start v) :
    Within l start (.imports importer rest) visited' := by
  obtain ⟨himporter, all, hall, hspecifiers⟩ := h.job
  have hstart : start ∈ visited := h.started.resolve_right nofun
  exact ⟨hled, Or.inl (hsub hstart), himporter, all, hall,
    fun s hs => hspecifiers (List.mem_cons_of_mem _ hs)⟩

/-- All that a success comes to is led to. -/
theorem Runs.led (h : Runs l job visited r) (hwithin : Within l start job visited) :
    ∀ visited', r = .ok visited' → ∀ v ∈ visited', LeadsTo l start v := by
  induction h with
  | again seen =>
    rintro _ ⟨⟩
    exact hwithin.led
  | read fresh reads rest ih => exact ih (hwithin.read fresh reads)
  | done =>
    rintro _ ⟨⟩
    exact hwithin.led
  | follows relative present deeper next ihdeeper ihnext =>
    have hled := ihdeeper (hwithin.target relative) _ rfl
    exact ihnext (hwithin.rest (deeper.done_of_ok _ rfl).1.subset hled)
  | served other serves next ih => exact ih (hwithin.rest (fun _ hv => hv) hwithin.led)
  | _ => intro _ hr; cases hr

/-- A file that is led to is the start, or its path was normalized. -/
theorem LeadsTo.eq_of_same {v : Path} (h : LeadsTo l start file) (hv : LeadsTo l start v)
    (hne : file.same start = false) (hsame : file.same v) : file = v := by
  cases hv with
  | start => exact absurd hsame (by simp [hne])
  | step _ _ _ _ _ =>
    cases h with
    | start => exact absurd hne (by simp [Path.same])
    | step _ _ _ _ _ => exact Path.normalize_eq_of_same hsame

/-- **A success comes to all that is led to,** and each file of it loads. -/
theorem Runs.closed (h : Runs l (.file start) [] (.ok visited)) :
    ∀ file, LeadsTo l start file → file ∈ visited ∧ l.Loads file := by
  obtain ⟨hextends, hseen⟩ := h.done_of_ok _ rfl
  have hled := h.led (within_start l start) _ rfl
  have hcomplete : ∀ v ∈ visited, Complete l visited v := fun v hv =>
    (hextends.complete v hv).resolve_left List.not_mem_nil
  have hloads : ∀ v ∈ visited, l.Loads v := by
    intro v hv
    obtain ⟨specifiers, himports, hmet⟩ := hcomplete v hv
    exact loads_iff.2 ⟨specifiers, himports, fun s hs => (hmet s hs).finds⟩
  suffices hmem : ∀ file, LeadsTo l start file → file ∈ visited from
    fun file hfile => ⟨hmem file hfile, hloads file (hmem file hfile)⟩
  intro file hfile
  induction hfile with
  | start =>
    cases h with
    | again seen => cases seen
    | read fresh reads rest => exact (rest.done_of_ok _ rfl).1.subset (List.mem_cons_self ..)
  | @step file specifiers specifier led reads imported relative other ih =>
    obtain ⟨all, hall, hmet⟩ := hcomplete file ih
    obtain rfl := Except.ok.inj (reads.symm.trans hall)
    obtain ⟨v, hv, hsame⟩ := List.any_eq_true.1 ((hmet specifier imported).visited relative)
    have heq := (led.step reads imported relative other).eq_of_same (hled v hv) other hsame
    rw [heq]
    exact hv

/-! ## The bound -/

/-- Pairwise different files that can be read. -/
structure Readable (l : Loader) (visited : List Path) : Prop where
  apart : visited.Nodup
  readable : ∀ v ∈ visited, (l.files.readText? v).isSome

/-- A text as a number: its bytes as digits, and a one in front that keeps
leading zeros apart. -/
def code (text : String) : ℕ :=
  Nat.ofDigits 256 (text.toByteArray.data.toList.map UInt8.toNat ++ [1])

/-- One more file that was not come to and can be read. -/
theorem Readable.cons (h : Readable l visited) (hfresh : visited.any path.same = false)
    (hreads : l.imports path = .ok specifiers) : Readable l (path :: visited) := by
  refine ⟨List.nodup_cons.2 ⟨fun hmem => ?_, h.apart⟩, fun v hv => ?_⟩
  · have hseen : visited.any path.same = true :=
      List.any_eq_true.2 ⟨path, hmem, beq_self_eq_true path.components⟩
    rw [hseen] at hfresh
    cases hfresh
  · rcases List.mem_cons.1 hv with rfl | hv
    · obtain ⟨source, -, hread, -⟩ := imports_eq_ok_iff.1 hreads
      rw [hread]
      rfl
    · exact h.readable v hv

/-- What comes to be visited can be read, and a search does not forget. -/
theorem Runs.readable (h : Runs l job visited r) (hreadable : Readable l visited) :
    ∀ visited', r = .ok visited' → Readable l visited' ∧ visited.length ≤ visited'.length := by
  induction h with
  | again seen =>
    rintro _ ⟨⟩
    exact ⟨hreadable, le_refl _⟩
  | read fresh reads rest ih =>
    intro visited' hr
    obtain ⟨hvisited, hlength⟩ := ih (hreadable.cons fresh reads) visited' hr
    rw [List.length_cons] at hlength
    exact ⟨hvisited, by omega⟩
  | done =>
    rintro _ ⟨⟩
    exact ⟨hreadable, le_refl _⟩
  | follows relative present deeper next ihdeeper ihnext =>
    intro visited'' hr
    obtain ⟨hvisited, hlength⟩ := ihdeeper hreadable _ rfl
    obtain ⟨hvisited', hlength'⟩ := ihnext hvisited visited'' hr
    exact ⟨hvisited', by omega⟩
  | served other serves next ih => exact ih hreadable
  | _ => intro _ hr; cases hr

/-- **Two loaders whose files differ in the order of their imports:** a file that
can be parsed for one can be for the other and imports the same, and there is
for both what other imports than relative ones ask for. -/
structure Reordered (l l' : Loader) : Prop where
  imports : ∀ file, (∃ specifiers specifiers', l.imports file = .ok specifiers ∧
    l'.imports file = .ok specifiers' ∧ specifiers.Perm specifiers') ∨
    ((l.imports file).isOk = false ∧ (l'.imports file).isOk = false)
  isFile : ∀ file, l.files.isFile file = l'.files.isFile file
  serves : ∀ file specifier, isRelative specifier = false →
    (l.Serves file specifier ↔ l'.Serves file specifier)

theorem Reordered.symm (h : Reordered l l') : Reordered l' l where
  imports file := (h.imports file).imp
    (fun ⟨s, s', hs, hs', hperm⟩ => ⟨s', s, hs', hs, hperm.symm⟩) fun ⟨hs, hs'⟩ => ⟨hs', hs⟩
  isFile file := (h.isFile file).symm
  serves file specifier hother := (h.serves file specifier hother).symm

/-- What a file imports in one order it imports in the other. -/
theorem Reordered.exists_imports (h : Reordered l l') (hl : l.imports file = .ok specifiers) :
    ∃ specifiers', l'.imports file = .ok specifiers' ∧ specifiers.Perm specifiers' := by
  rcases h.imports file with ⟨s, s', hs, hs', hperm⟩ | ⟨hnone, -⟩
  · obtain rfl := Except.ok.inj (hl.symm.trans hs)
    exact ⟨s', hs', hperm⟩
  · rw [hl] at hnone
    cases hnone

theorem Reordered.finds (h : Reordered l l') (hl : l.Finds file specifier) :
    l'.Finds file specifier := by
  rw [Finds] at hl ⊢
  split_ifs at hl ⊢ with hrelative
  · rw [← h.isFile]
    exact hl
  · exact (h.serves file specifier (by simpa using hrelative)).1 hl

theorem Reordered.loads (h : Reordered l l') (hl : l.Loads file) : l'.Loads file := by
  obtain ⟨specifiers, himports, hfinds⟩ := loads_iff.1 hl
  obtain ⟨specifiers', himports', hperm⟩ := h.exists_imports himports
  exact loads_iff.2 ⟨specifiers', himports', fun s hs => h.finds (hfinds s (hperm.mem_iff.2 hs))⟩

theorem Reordered.leadsTo (h : Reordered l l') (hl : LeadsTo l start file) :
    LeadsTo l' start file := by
  induction hl with
  | start => exact .start
  | step led reads imported relative other ih =>
    obtain ⟨specifiers', himports', hperm⟩ := h.exists_imports reads
    exact ih.step himports' (hperm.mem_iff.1 imported) relative other

end DepBundle.Analysis.Loader
