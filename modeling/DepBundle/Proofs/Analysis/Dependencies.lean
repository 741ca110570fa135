import DepBundle.Proofs.Analysis.Entry
import DepBundle.Proofs.Graph.Shaken
import DepBundle.Proofs.Package.Bindings
/-!
# Analysis — the dependencies of an entry

The chunk of an entry asks of the host what its modules ask of it
(`mem_asked_iff`), and what is asked of each dependency is put together. So
the analysis names the dependencies that some module imports, no more and no
less, and for each the names that some module reads, or everything
(`Compiled.tells`). No dependency is left out because nothing is read from it
(`Compiled.unshaken`).
-/

namespace DepBundle.Analysis

open DepBundle.Graph DepBundle.ChunkGraph DepBundle.Package

variable {s : Settings} {around : Surroundings} {entry : Entry} {t t' : FileTree} {g : Graph}
  {c : Output.Chunk} {m : Metadata} {r : Resolved} {start x name : String}
  {files : List Output.File} {known found : Dependencies}

/-! ## What a chunk asks of the host -/

/-- The names that a chunk asks for, by module: everything of one that may be
loaded later. -/
def asked (c : Output.Chunk) : List (String × List String) :=
  c.importedBindings.entries ++ c.dynamicImports.map fun x => (x, [wildcard])

/-- What is known of the dependencies is what is asked of each, put
together. -/
theorem importedFrom_eq (s : Settings) (c : Output.Chunk) :
    importedFrom s c = learn .empty ((asked c).filter fun p => isCandidate s p.1) := by
  have hasked : (c.importedBindings.entries.map fun p => (p.1, Bindings.ofList p.2)) ++
      c.dynamicImports.map (fun x => (x, Bindings.all)) =
        (asked c).map fun p => (p.1, Bindings.ofList p.2) := by
    rw [asked, List.map_append, List.map_map]
    rfl
  have hfold : importedFrom s c = (((c.importedBindings.entries.map fun p =>
      (p.1, Bindings.ofList p.2)) ++ c.dynamicImports.map fun x => (x, Bindings.all)).filter
        fun p => isCandidate s p.1).foldl (fun known p =>
          known.modify p.1 {} (·.merge { bindings := p.2 })) .empty := rfl
  rw [hfold, hasked, List.filter_map, List.foldl_map]
  rfl

/-- The names that a chunk asks a module for. -/
def askedOf (c : Output.Chunk) (x : String) : List String :=
  ((asked c).filter (·.1 = x)).flatMap (·.2)

theorem askedOf_eq : askedOf c x = (c.importedBindings.get? x).getD [] ++
    (c.dynamicImports.filter (· = x)).flatMap fun _ => [wildcard] := by
  rw [askedOf, asked, List.filter_append, List.flatMap_append, OrderedMap.filter_entries]
  congr 1
  · cases c.importedBindings.get? x <;> simp
  · rw [List.filter_map, List.flatMap_map]
    rfl

/-- Everything is asked of a module that may be loaded later. -/
theorem wildcard_mem_askedOf : wildcard ∈ askedOf c x ↔
    x ∈ c.dynamicImports ∨ wildcard ∈ (c.importedBindings.get? x).getD [] := by
  rw [askedOf_eq, List.mem_append, or_comm]
  simp

theorem askedOf_of_not_mem (h : x ∉ c.dynamicImports) :
    askedOf c x = (c.importedBindings.get? x).getD [] := by
  have hnone : c.dynamicImports.filter (· = x) = [] :=
    List.filter_eq_nil_iff.2 fun y hy hx => h (of_decide_eq_true hx ▸ hy)
  rw [askedOf_eq, hnone]
  exact List.append_nil _

/-! ## What an entry tells of a dependency -/

theorem contains_importedFrom : (importedFrom s c).contains x ↔
    isCandidate s x ∧ ∃ names, (x, names) ∈ asked c := by
  rw [importedFrom_eq, contains_learn, or_iff_right (by simp [OrderedMap.contains])]
  constructor
  · rintro ⟨p, hp, rfl⟩
    obtain ⟨hp, hcandidate⟩ := List.mem_filter.1 hp
    exact ⟨hcandidate, p.2, hp⟩
  · rintro ⟨hcandidate, names, hp⟩
    exact ⟨(x, names), List.mem_filter.2 ⟨hp, hcandidate⟩, rfl⟩

theorem contains_dependenciesOf : (dependenciesOf around entry c).contains x ↔
    isCandidate around.settings x ∧ ∃ names, (x, names) ∈ asked c := by
  rw [dependenciesOf, OrderedMap.contains, OrderedMap.get?_mapValues, Option.isSome_map]
  exact contains_importedFrom

theorem about_importedFrom (hcandidate : isCandidate s x) :
    about (importedFrom s c) x = { bindings := .ofList (askedOf c x) } := by
  have hlisted : ((asked c).filter fun p => isCandidate s p.1).filter (·.1 = x) =
      (asked c).filter (·.1 = x) := by
    rw [List.filter_filter]
    refine List.filter_congr fun p _ => ?_
    by_cases hp : p.1 = x <;> simp [hp, hcandidate]
  rw [importedFrom_eq, about_learn, hlisted, Metadata.merge, Bindings.merge_ofList]
  rfl

/-- Where an entry looks for a dependency: for the package it points into. -/
def Entry.packageRoot? (around : Surroundings) (entry : Entry) (x : String) : Option Path :=
  Resolution.Resolver.packageRoot? around.files ⟨around.settings.platform, around.settings.cwd⟩
    ((Package.packageOf? x).getD x) (entry.lookupDirectory around.settings)

/-- **What an entry tells of a dependency:** the names its chunk asks for,
and where the package is if it is read from at once. -/
theorem about_dependenciesOf (hcandidate : isCandidate around.settings x) :
    about (dependenciesOf around entry c) x =
      if x ≠ toolBindings ∧ c.importedBindings.contains x then
        { bindings := .ofList (askedOf c x)
          root := entry.packageRoot? around x
          inWorkspace := around.members.contains ((packageOf? x).getD x) }
      else { bindings := .ofList (askedOf c x) } := by
  have hown := about_importedFrom (c := c) hcandidate
  have hthere : c.importedBindings.contains x →
      ((importedFrom around.settings c).get? x).isSome := by
    intro hreads
    obtain ⟨names, hnames⟩ := Option.isSome_iff_exists.1 hreads
    have hasked := List.mem_append_left (c.dynamicImports.map fun x => (x, [wildcard]))
      (OrderedMap.get?_eq_some_iff.1 hnames)
    exact contains_importedFrom.2 ⟨hcandidate, names, hasked⟩
  rw [about] at hown
  rw [about, dependenciesOf, OrderedMap.get?_mapValues]
  cases hm : (importedFrom around.settings c).get? x with
  | none =>
    rw [hm] at hown hthere
    rw [if_neg fun h => Bool.false_ne_true (hthere h.2)]
    exact hown
  | some own =>
    obtain rfl : own = _ := by simpa [hm] using hown
    simp only [Option.map_some, Option.getD_some, Bool.and_eq_true, decide_eq_true_eq]
    split <;> rfl

/-- Where a dependency is installed changes nothing of what is read from
it. -/
theorem gathers_dependenciesOf (hcandidate : isCandidate around.settings x)
    (hget : (dependenciesOf around entry c).get? x = some m) :
    m.bindings.Gathers (askedOf c x) := by
  rw [← about_eq_of_get? hget, about_dependenciesOf hcandidate]
  split <;> exact Bindings.gathers_ofList _

/-! ## What is known together -/

/-- What two places know of a dependency is put together for each. -/
theorem about_merge (known found : Dependencies) (x : String) :
    about (known.merge found) x = (about known x).merge (about found x) := by
  have hfold : known.merge found =
      found.entries.foldl (fun known e => known.modify e.1 {} (·.merge e.2)) known := rfl
  rw [hfold, about_foldl, OrderedMap.filter_entries, about, about]
  cases found.get? x with
  | none => exact (Metadata.merge_empty _).symm
  | some m => rfl

theorem contains_merge : (known.merge found).contains x ↔ known.contains x ∨ found.contains x := by
  have hfold := foldl_iff (P := fun known : Dependencies => known.contains x)
    (Q := fun e : String × Metadata => e.1 = x)
    (f := fun known e => known.modify e.1 {} (·.merge e.2)) (fun known e => by
      rw [OrderedMap.contains_modify, or_comm, eq_comm (a := x)]) found.entries known
  rw [OrderedMap.contains_iff_mem_keys (m := found), OrderedMap.keys, List.mem_map]
  exact hfold

/-- Where all that is put to it is known, nothing changes. -/
theorem merge_eq_self (hthere : ∀ x, found.contains x → known.contains x)
    (habout : ∀ x, (about known x).merge (about found x) = about known x) :
    known.merge found = known := by
  have hstep : ∀ e ∈ found.entries, known.modify e.1 {} (·.merge e.2) = known := by
    intro e he
    have hfound : found.get? e.1 = some e.2 := OrderedMap.get?_eq_some_iff.2 he
    obtain ⟨m, hm⟩ := Option.isSome_iff_exists.1
      (hthere e.1 (Option.isSome_iff_exists.2 ⟨e.2, hfound⟩))
    have hmerge := habout e.1
    rw [about, about, hm, hfound] at hmerge
    refine OrderedMap.insert_eq_self (hm.trans ?_)
    rw [hm]
    exact congrArg some hmerge.symm
  have hfold : ∀ es : List (String × Metadata), (∀ e ∈ es, e ∈ found.entries) →
      es.foldl (fun known e => known.modify e.1 {} (·.merge e.2)) known = known := by
    intro es
    induction es with
    | nil => exact fun _ => rfl
    | cons e es ih =>
      intro hes
      rw [List.foldl_cons, hstep e (hes e (List.mem_cons_self ..))]
      exact ih fun e' he' => hes e' (List.mem_cons_of_mem _ he')
  exact hfold found.entries fun _ he => he

/-! ## What modules ask of the host -/

/-- What a record reads: the names it uses, and everything where it is that
of an `import()`. -/
def Takes (record : Module.Record) (name : String) : Prop :=
  record.kind.isStatic ∧ name ∈ record.form.usedNames ∨
    record.kind = .dynamicImport ∧ name = wildcard

/-- **A chunk asks for a module of the host** where one of the modules that
it sums up does, -/
theorem exists_mem_asked_iff (h : Sums g start c) : (∃ names, (x, names) ∈ asked c) ↔
    g.isExternal x ∧ ∃ id record, (record, x) ∈ g.requests id := by
  have hentries : (∃ names, (x, names) ∈ c.importedBindings.entries) ↔
      ∃ id record, ReadsFrom g id x record := by
    rw [← h.contains, OrderedMap.contains_iff_mem_keys, OrderedMap.keys, List.mem_map]
    simp
  have hlater : (∃ names, (x, names) ∈ c.dynamicImports.map fun x => (x, [wildcard])) ↔
      ∃ id record, (record, x) ∈ g.requests id ∧ record.kind = .dynamicImport ∧ g.isExternal x := by
    rw [← h.later]
    simp
  simp only [asked, List.mem_append, exists_or, hentries, hlater]
  constructor
  · rintro (⟨id, record, hreads⟩ | ⟨id, record, hrequest, -, hexternal⟩)
    · exact ⟨hreads.external, id, record, hreads.request⟩
    · exact ⟨hexternal, id, record, hrequest⟩
  · rintro ⟨hexternal, id, record, hrequest⟩
    cases hkind : record.kind with
    | dynamicImport => exact Or.inr ⟨id, record, hrequest, hkind, hexternal⟩
    | statement => exact Or.inl ⟨id, record, hrequest, by rw [hkind]; rfl, hexternal⟩
    | requireCall => exact Or.inl ⟨id, record, hrequest, by rw [hkind]; rfl, hexternal⟩

/-- and for the names that these take. -/
theorem mem_asked_iff (h : Sums g start c) :
    name ∈ askedOf c x ↔
      g.isExternal x ∧ ∃ id record, (record, x) ∈ g.requests id ∧ Takes record name := by
  have hasked : name ∈ askedOf c x ↔
      (∃ listed, c.importedBindings.get? x = some listed ∧ name ∈ listed) ∨
        x ∈ c.dynamicImports ∧ name = wildcard := by
    simp [askedOf, asked, OrderedMap.get?_eq_some_iff]
  rw [hasked]
  constructor
  · rintro (⟨listed, hlisted, hname⟩ | ⟨hlater, rfl⟩)
    · obtain ⟨id, record, hreads, hused⟩ := (h.names x listed hlisted name).1 hname
      exact ⟨hreads.external, id, record, hreads.request, Or.inl ⟨hreads.atOnce, hused⟩⟩
    · obtain ⟨id, record, hrequest, hkind, hexternal⟩ := (h.later x).1 hlater
      exact ⟨hexternal, id, record, hrequest, Or.inr ⟨hkind, rfl⟩⟩
  · rintro ⟨hexternal, id, record, hrequest, ⟨hstatic, hused⟩ | ⟨hkind, rfl⟩⟩
    · have hreads : ReadsFrom g id x record := ⟨hrequest, hstatic, hexternal⟩
      obtain ⟨listed, hlisted⟩ := Option.isSome_iff_exists.1 ((h.contains x).2 ⟨id, record, hreads⟩)
      exact Or.inl ⟨listed, hlisted, (h.names x listed hlisted name).2 ⟨id, record, hreads, hused⟩⟩
    · exact Or.inr ⟨(h.later x).2 ⟨id, record, hrequest, hkind, hexternal⟩, rfl⟩

/-! ## What is told of the dependencies -/

/-- **What is told of the dependencies of a program** is what its modules
ask of the host. -/
structure Tells (s : Settings) (g : Graph) (found : Dependencies) : Prop where
  /-- A dependency is what some module imports, by a statement, by `require()`
  or by `import()`, that is left to the host and may be one. -/
  contains : ∀ x, found.contains x ↔
    isCandidate s x ∧ g.isExternal x ∧ ∃ id record, (record, x) ∈ g.requests id
  /-- Everything is read from it where some module imports it while it runs,
  or takes it as a whole at once. -/
  all_iff : ∀ x m, found.get? x = some m → (m.bindings = .all ↔
    ∃ id record, (record, x) ∈ g.requests id ∧
      (record.kind = .dynamicImport ∨ record.kind.isStatic ∧ wildcard ∈ record.form.usedNames))
  /-- Otherwise exactly the names are read that some module uses, -/
  named : ∀ x m, found.get? x = some m → m.bindings ≠ .all →
    ∃ names, m.bindings = .named names ∧ ∀ name, name ∈ names ↔
      ∃ id record, (record, x) ∈ g.requests id ∧ record.kind.isStatic ∧
        name ∈ record.form.usedNames
  /-- none of them where nothing refers to any. -/
  unused : ∀ x m, found.get? x = some m →
    (∀ id record, (record, x) ∈ g.requests id →
      record.kind.isStatic ∧ record.form.usedNames = []) → m.bindings = .none

theorem Compiled.tells (h : Compiled around.settings entry t files g r c) :
    Tells around.settings g (dependenciesOf around entry c) := by
  have hcontains : ∀ x, (dependenciesOf around entry c).contains x ↔ isCandidate around.settings x ∧
      g.isExternal x ∧ ∃ id record, (record, x) ∈ g.requests id := fun x => by
    rw [contains_dependenciesOf, exists_mem_asked_iff h.sums]
  have hthere : ∀ {x m}, (dependenciesOf around entry c).get? x = some m →
      isCandidate around.settings x ∧ g.isExternal x := fun hget => by
    have hall := (hcontains _).1 (Option.isSome_iff_exists.2 ⟨_, hget⟩)
    exact ⟨hall.1, hall.2.1⟩
  have hmem : ∀ {x name}, g.isExternal x → (name ∈ askedOf c x ↔
      ∃ id record, (record, x) ∈ g.requests id ∧ Takes record name) := fun hexternal => by
    rw [mem_asked_iff h.sums, and_iff_right hexternal]
  -- of a dependency it is known that it is one, so only what is taken of it is left to say
  refine ⟨hcontains, fun x m hget => ?_, fun x m hget hnotAll => ?_, fun x m hget hnone => ?_⟩
  all_goals obtain ⟨hcandidate, hexternal⟩ := hthere hget
  all_goals have hgathers := gathers_dependenciesOf hcandidate hget
  · rw [hgathers.eq_all_iff, hmem hexternal]
    refine exists_congr fun id => exists_congr fun record => and_congr_right fun _ => ?_
    rw [Takes, and_iff_left rfl, or_comm]
  · have hwild := mt hgathers.eq_all_iff.2 hnotAll
    obtain ⟨names, hnames, hiff⟩ := hgathers.exists_named hwild
    refine ⟨names, hnames, fun name => ?_⟩
    rw [hiff, hmem hexternal]
    refine exists_congr fun id => exists_congr fun record => and_congr_right fun hrequest =>
      or_iff_left ?_
    rintro ⟨hkind, -⟩
    exact hwild ((hmem hexternal).2 ⟨id, record, hrequest, Or.inr ⟨hkind, rfl⟩⟩)
  · refine hgathers.eq_none fun name hname => ?_
    obtain ⟨id, record, hrequest, ⟨-, hused⟩ | ⟨hkind, -⟩⟩ := (hmem hexternal).1 hname
    · rw [(hnone id record hrequest).2] at hused
      cases hused
    · have hstatic := (hnone id record hrequest).1
      rw [hkind] at hstatic
      cases hstatic

theorem Compiled.kept (h : Compiled s entry t files g r c) {id : String} {b : Bundled}
    (hb : g.bundled? id = some b) {i : Graph.Import} (hi : i ∈ b.imports)
    (hexternal : (Task.standsFor ⟨t, entry.settings s t⟩ id i.record).isExternal) :
    i.target = some (Task.standsFor ⟨t, entry.settings s t⟩ id i.record).id := by
  obtain ⟨task, loaded, rfl, hload, rfl⟩ := h.program.made id b hb
  obtain ⟨request, hrequest, rfl⟩ := List.mem_map.1 hi
  have hwanted := (Task.loads_load hload).wanted request hrequest
  rw [Task.wanted_of_isExternal hexternal] at hwanted
  exact congrArg (Option.map (·.id)) hwanted

theorem Compiled.unshaken (h : Compiled s entry t files g r c) {id : String} {b : Bundled}
    (hb : g.bundled? id = some b) {loaded : Loaded}
    (hload : Task.load (Graph.Surroundings.unshaken ⟨t, entry.settings s t⟩)
      { module := { id } } = .ok loaded)
    {request : Module.Record × Option Resolved} (hrequest : request ∈ loaded.imports)
    {target : Resolved} (htarget : target ∈ request.2) (hexternal : target.isExternal) :
    ∃ i ∈ b.imports, i.record.request = request.1.request ∧ i.target = some target.id := by
  obtain ⟨task, loaded', rfl, hload', rfl⟩ := h.program.made id b hb
  obtain ⟨request', hrequest', hsame, htarget'⟩ :=
    Task.exists_request_of_unshaken hload' hload rfl hrequest htarget hexternal
  refine ⟨_, List.mem_map_of_mem hrequest', hsame, ?_⟩
  exact congrArg (Option.map (·.id)) htarget'

end DepBundle.Analysis
