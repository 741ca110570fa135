import DepBundle.Proofs.Analysis.Dependencies
/-!
# Analysis — one entry after another

Whoever analyzes several entries, whichever of them fail, knows what the calls
that succeed find, put together (`analyzeEach_known`). For a dependency that is
all the names they read in order, the first root that one of them finds, and
membership in the workspace if one of them sees it (`Call.about_union`). Each of
the three goes by a rule of its own, and so does whether a dependency is known
at all. Yet a call that was made before finds nothing new by any of them
(`Call.union_merge_of_mem`), and of the order of the calls nothing is left but
which name and which root come first (`alike_of_perm`).

That is said of calls that get one answer each. So it holds of a run where the
compiler answers to a request what it would have at first
(`analyzeEach_accumulates`), as the one over files does (`steady_onFiles`). A run
that stops at the first entry to fail, and meets none, knows the same
(`analyzeEach_of_analyzeAll`).
-/

namespace DepBundle.Analysis

open DepBundle.Package

variable {World : Type} {compiler : Compile.Compiler World} {around : Surroundings}
  {entry : Entry} {entries : List Entry} {w w' : World} {Same : World → Prop}
  {known : Dependencies} {x : String}

theorem isIgnored_toolBindings (current : Path) (o : Options) :
    (o.settings current).isIgnored toolBindings :=
  decide_eq_true (OrderedSet.mem_ofList.2 (List.mem_append_right _ (List.mem_singleton_self _)))

theorem ne_toolBindings (hignored : around.settings.isIgnored toolBindings)
    (hcandidate : isCandidate around.settings x) : x ≠ toolBindings := by
  rintro rfl
  simp [isCandidate, hignored] at hcandidate

/-! ## Calls -/

/-- A call that succeeds: the entry, and the chunk it is compiled into. -/
structure Call where
  entry : Entry
  chunk : Output.Chunk

namespace Call

/-- The dependencies that a call finds. -/
def found (around : Surroundings) (call : Call) : Dependencies :=
  dependenciesOf around call.entry call.chunk

/-- Whether a call reads from a module at once. -/
def Reads (call : Call) (x : String) : Prop := call.chunk.importedBindings.contains x

/-- Whether a module may be loaded later. -/
def Loads (call : Call) (x : String) : Prop := x ∈ call.chunk.dynamicImports

instance (call : Call) (x : String) : Decidable (call.Reads x) :=
  inferInstanceAs (Decidable (call.chunk.importedBindings.contains x = true))

/-- The names read from a module at once. -/
def names (x : String) (call : Call) : List String :=
  (call.chunk.importedBindings.get? x).getD []

/-- Where a dependency that is read from at once is. -/
def root? (around : Surroundings) (x : String) (call : Call) : Option Path :=
  if call.Reads x then call.entry.packageRoot? around x else none

/-- Whether a dependency is read from at once, and of a package of the
workspace. -/
def inWorkspace (around : Surroundings) (x : String) (call : Call) : Bool :=
  decide (call.Reads x) && around.members.contains ((packageOf? x).getD x)

variable {call : Call} {calls calls' : List Call}

theorem contains_found : (call.found around).contains x ↔
    isCandidate around.settings x ∧ (call.Reads x ∨ call.Loads x) := by
  have hreads : call.Reads x ↔ ∃ names, (x, names) ∈ call.chunk.importedBindings.entries := by
    rw [Reads, OrderedMap.contains_iff_mem_keys, OrderedMap.keys, List.mem_map]
    simp
  rw [found, contains_dependenciesOf, hreads, Loads]
  simp [asked, exists_or]

/-- **What a call tells of a dependency.** -/
theorem about_found (hcandidate : isCandidate around.settings x) (htools : x ≠ toolBindings) :
    about (call.found around) x =
      { bindings := .ofList (askedOf call.chunk x)
        root := call.root? around x
        inWorkspace := call.inWorkspace around x } := by
  rw [found, about_dependenciesOf hcandidate]
  simp only [root?, inWorkspace, htools, ne_eq, not_false_eq_true, true_and]
  by_cases hreads : call.Reads x
  · have hcontains : call.chunk.importedBindings.contains x := hreads
    simp [hcontains, hreads]
  · have hcontains : ¬ call.chunk.importedBindings.contains x := hreads
    simp [hcontains, hreads]

/-- What some calls find, put together. -/
def union (around : Surroundings) (calls : List Call) : Dependencies :=
  calls.foldl (fun known call => known.merge (call.found around)) .empty

theorem union_append_singleton :
    union around (calls ++ [call]) = (union around calls).merge (call.found around) :=
  List.foldl_append

theorem contains_union : (union around calls).contains x ↔
    isCandidate around.settings x ∧ ∃ call ∈ calls, call.Reads x ∨ call.Loads x := by
  have hfold := foldl_iff (P := fun known : Dependencies => known.contains x)
    (Q := fun call : Call => (call.found around).contains x)
    (f := fun known call => known.merge (call.found around))
    (fun known call => contains_merge) calls .empty
  rw [union, hfold, or_iff_right (by simp [OrderedMap.contains])]
  simp only [contains_found]
  constructor
  · rintro ⟨call, hcall, hcandidate, hsees⟩
    exact ⟨hcandidate, call, hcall, hsees⟩
  · rintro ⟨hcandidate, call, hcall, hsees⟩
    exact ⟨call, hcall, hcandidate, hsees⟩

/-- **What some calls tell of a dependency:** all the names they ask for in
order, the first root that one of them finds, and membership if one of them
sees it. -/
theorem about_union (hcandidate : isCandidate around.settings x) (htools : x ≠ toolBindings) :
    about (union around calls) x =
      { bindings := .ofList (calls.flatMap fun call => askedOf call.chunk x)
        root := calls.findSome? (·.root? around x)
        inWorkspace := calls.any (·.inWorkspace around x) } := by
  induction calls using List.reverseRecOn with
  | nil => rfl
  | append_singleton calls call ih =>
    rw [union_append_singleton, about_merge, ih, about_found hcandidate htools, Metadata.merge,
      ← Bindings.ofList_append]
    simp [List.findSome?_append]

/-- **A call that was made finds nothing new.** -/
theorem union_merge_of_mem (hignored : around.settings.isIgnored toolBindings)
    (hcall : call ∈ calls) :
    (union around calls).merge (call.found around) = union around calls := by
  refine merge_eq_self (fun x hx => ?_) (fun x => ?_)
  · obtain ⟨hcandidate, hsees⟩ := contains_found.1 hx
    exact contains_union.2 ⟨hcandidate, call, hcall, hsees⟩
  · by_cases hcandidate : isCandidate around.settings x
    · have htools := ne_toolBindings hignored hcandidate
      -- the names, the root and the membership of the call are in the union already
      have hnames : ∀ name ∈ askedOf call.chunk x,
          name ∈ calls.flatMap fun call => askedOf call.chunk x := fun name hname =>
        List.mem_flatMap.2 ⟨call, hcall, hname⟩
      have hroot : (call.root? around x).isSome →
          (calls.findSome? (·.root? around x)).isSome := fun h =>
        List.findSome?_isSome_iff.2 ⟨call, hcall, h⟩
      have hmember : call.inWorkspace around x → calls.any (·.inWorkspace around x) := fun h =>
        List.any_eq_true.2 ⟨call, hcall, h⟩
      rw [about_union hcandidate htools, about_found hcandidate htools, Metadata.merge,
        ← Bindings.ofList_append, Bindings.ofList_append_of_subset hnames]
      congr 1
      · cases hfirst : calls.findSome? (·.root? around x) with
        | some root => rfl
        | none =>
          rw [hfirst, Option.isSome_none] at hroot
          simpa using hroot
      · exact Bool.or_eq_left_iff_imp.2 hmember
    · have hnone : ¬ (call.found around).contains x :=
        fun hx => hcandidate (contains_found.1 hx).1
      rw [about_of_not_contains hnone, Metadata.merge_empty]

theorem union_of_mem (hignored : around.settings.isIgnored toolBindings) (hcall : call ∈ calls)
    (later : List Call) :
    union around (calls ++ call :: later) = union around (calls ++ later) := by
  rw [union, union, List.foldl_append, List.foldl_append, List.foldl_cons]
  exact congrArg (later.foldl _) (union_merge_of_mem hignored hcall)

end Call

/-! ## What some calls tell -/

/-- **What is known of the dependencies after some calls.** -/
structure Unites (around : Surroundings) (calls : List Call) (known : Dependencies) : Prop where
  /-- A dependency is what some call reads from at once, or may load later. -/
  contains : ∀ x, known.contains x ↔
    isCandidate around.settings x ∧ ∃ call ∈ calls, call.Reads x ∨ call.Loads x
  /-- Everything is asked of it where some call may load it later, or reads
  everything from it. -/
  all_iff : ∀ x m, known.get? x = some m →
    (m.bindings = .all ↔ ∃ call ∈ calls, call.Loads x ∨ wildcard ∈ call.names x)
  /-- Otherwise the names are that the calls read, in the order in which they
  were first read. -/
  named : ∀ x m, known.get? x = some m → m.bindings ≠ .all →
    ∃ names, m.bindings = .named names ∧ names.toList = (calls.flatMap (·.names x)).eraseDups
  /-- It is one of the workspace where some call reads from it at once, and the
  workspace has the package. -/
  inWorkspace : ∀ x m, known.get? x = some m → (m.inWorkspace ↔
    (∃ call ∈ calls, call.Reads x) ∧ around.members.contains ((packageOf? x).getD x))
  /-- It is where the first call finds it that does, -/
  root : ∀ x m, known.get? x = some m → m.root = calls.findSome? (·.root? around x)
  /-- and nowhere if it was only ever loaded later. -/
  unread : ∀ x m, known.get? x = some m → (∀ call ∈ calls, ¬ call.Reads x) → m.root = none
  /-- The tools that the runtime serves are none. -/
  tools : ¬ known.contains toolBindings

theorem unites_union (hignored : around.settings.isIgnored toolBindings) (calls : List Call) :
    Unites around calls (Call.union around calls) := by
  have habout : ∀ {x m}, (Call.union around calls).get? x = some m →
      m = { bindings := .ofList (calls.flatMap fun call => askedOf call.chunk x)
            root := calls.findSome? (·.root? around x)
            inWorkspace := calls.any (·.inWorkspace around x) } := by
    intro x m hget
    have hcandidate := (Call.contains_union.1 (Option.isSome_iff_exists.2 ⟨_, hget⟩)).1
    rw [← about_eq_of_get? hget, Call.about_union hcandidate (ne_toolBindings hignored hcandidate)]
  have hall : ∀ {x m}, (Call.union around calls).get? x = some m →
      (m.bindings = .all ↔ ∃ call ∈ calls, call.Loads x ∨ wildcard ∈ call.names x) := by
    intro x m hget
    rw [habout hget, Bindings.ofList_eq_all_iff, List.mem_flatMap]
    exact exists_congr fun call => and_congr_right fun _ => wildcard_mem_askedOf
  refine ⟨fun x => Call.contains_union, fun x m hget => hall hget, fun x m hget hne => ?_,
    fun x m hget => ?_, fun x m hget => ?_, fun x m hget hunread => ?_, fun htools => ?_⟩
  · -- where not everything is asked for, nothing may be loaded later
    have hlater : ∀ call ∈ calls, ¬ call.Loads x := fun call hcall hloads =>
      hne ((hall hget).2 ⟨call, hcall, Or.inl hloads⟩)
    have hnames : (calls.flatMap fun call => askedOf call.chunk x) = calls.flatMap (·.names x) :=
      List.flatMap_congr fun call hcall => askedOf_of_not_mem (hlater call hcall)
    rw [habout hget] at hne ⊢
    have hwild := mt Bindings.ofList_eq_all_iff.2 hne
    exact ⟨_, Bindings.ofList_eq_named hwild, hnames ▸ OrderedSet.toList_ofList _⟩
  · rw [habout hget, List.any_eq_true]
    simp only [Call.inWorkspace, Bool.and_eq_true, decide_eq_true_eq]
    constructor
    · rintro ⟨call, hcall, hreads, hmember⟩
      exact ⟨⟨call, hcall, hreads⟩, hmember⟩
    · rintro ⟨⟨call, hcall, hreads⟩, hmember⟩
      exact ⟨call, hcall, hreads, hmember⟩
  · rw [habout hget]
  · rw [habout hget]
    exact List.findSome?_eq_none_iff.2 fun call hcall => if_neg (hunread call hcall)
  · exact ne_toolBindings hignored (Call.contains_union.1 htools).1 rfl

/-- What is known in two ways that differ in the order in which it was found
out. -/
structure Alike (known others : Dependencies) : Prop where
  /-- The dependencies are the same. -/
  contains : ∀ x, known.contains x ↔ others.contains x
  /-- Everything is asked of the same, -/
  all_iff : ∀ x, (about known x).bindings = .all ↔ (about others x).bindings = .all
  /-- and of each the same names. -/
  names : ∀ x name,
    name ∈ (about known x).bindings.toList ↔ name ∈ (about others x).bindings.toList
  inWorkspace : ∀ x, (about known x).inWorkspace = (about others x).inWorkspace
  /-- The same are found, though not always in one place. -/
  root : ∀ x, (about known x).root.isSome = (about others x).root.isSome

theorem alike_of_perm {calls calls' : List Call} (hignored : around.settings.isIgnored toolBindings)
    (h : calls.Perm calls') : Alike (Call.union around calls) (Call.union around calls') := by
  have hcontains : ∀ x, (Call.union around calls).contains x ↔
      (Call.union around calls').contains x := fun x => by
    simp only [Call.contains_union, h.mem_iff]
  have hnone : ∀ x, ¬ isCandidate around.settings x →
      about (Call.union around calls) x = about (Call.union around calls') x := by
    intro x hx
    have hnot : ∀ calls : List Call, ¬ (Call.union around calls).contains x := fun calls hmem =>
      hx (Call.contains_union.1 hmem).1
    rw [about_of_not_contains (hnot calls), about_of_not_contains (hnot calls')]
  have hgathers : ∀ x, (Bindings.ofList (calls'.flatMap fun call => askedOf call.chunk x)).Gathers
      (calls.flatMap fun call => askedOf call.chunk x) := fun x =>
    (Bindings.gathers_ofList _).congr fun name => (h.flatMap_right _).symm.mem_iff
  refine ⟨hcontains, fun x => ?_, fun x name => ?_, fun x => ?_, fun x => ?_⟩
  -- of what is no dependency nothing is known in either order
  all_goals
    by_cases hx : isCandidate around.settings x
    case neg => rw [hnone x hx]
    case' pos =>
      have htools := ne_toolBindings hignored hx
      rw [Call.about_union hx htools, Call.about_union hx htools]
  · rw [Bindings.ofList_eq_all_iff, (hgathers x).eq_all_iff]
  · exact (Bindings.gathers_ofList _).mem_toList_iff (hgathers x)
  · exact h.any_eq
  · rw [List.isSome_findSome?, List.isSome_findSome?]
    exact h.any_eq

/-! ## One call after another -/

/-- **A compiler whose answers stay the same,** in all the worlds that
analyzing leads to from a first one. -/
structure Steady (compiler : Compile.Compiler World) (s : Settings) (w : World)
    (Same : World → Prop) : Prop where
  start : Same w
  /-- What it answers depends on the request alone. -/
  answer : ∀ (entry : Entry) w', Same w' →
    (compiler.compile (entry.request s) w').1 = (compiler.compile (entry.request s) w).1
  /-- Answering leads to another of the worlds. -/
  stays : ∀ (entry : Entry) w', Same w' → Same (compiler.compile (entry.request s) w').2

/-- The compiler over files leaves them as they are. -/
theorem steady_onFiles (s : Settings) (t : FileTree) : Steady .onFiles s t (· = t) := by
  refine ⟨rfl, ?_, ?_⟩
  · rintro entry _ rfl
    rfl
  · rintro entry _ rfl
    exact congrArg Prod.snd build_request

/-- The call that an entry comes to, where compiling gives a chunk for it. -/
def Entry.call? (compiler : Compile.Compiler World) (s : Settings) (w : World) (entry : Entry) :
    Option Call :=
  (compiler.compile (entry.request s) w).1.toOption.bind fun outcome =>
    ((Output.chunks outcome.files).find? (·.isStaticEntry)).map (⟨entry, ·⟩)

theorem analyze_world : (entry.analyze compiler around w).2 =
    (compiler.compile (entry.request around.settings) w).2 := by
  rw [Entry.analyze]
  rcases compiler.compile (entry.request around.settings) w with ⟨failures | outcome, after⟩
  · rfl
  · dsimp only
    split <;> rfl

/-- An analysis goes by what the compiler answers. -/
theorem analyze_congr (h : (compiler.compile (entry.request around.settings) w').1 =
    (compiler.compile (entry.request around.settings) w).1) :
    (entry.analyze compiler around w').1 = (entry.analyze compiler around w).1 := by
  simp only [Entry.analyze]
  revert h
  rcases compiler.compile (entry.request around.settings) w with ⟨answer, after⟩
  rcases compiler.compile (entry.request around.settings) w' with ⟨answer', after'⟩
  rintro (rfl : answer' = answer)
  cases answer' with
  | error failures => rfl
  | ok outcome =>
    dsimp only
    split <;> rfl

theorem toOption_analyze : (entry.analyze compiler around w).1.toOption =
    (entry.call? compiler around.settings w).map fun call =>
      ⟨call.found around, call.chunk.code⟩ := by
  rw [Entry.analyze, Entry.call?]
  rcases compiler.compile (entry.request around.settings) w with ⟨failures | outcome, after⟩
  · rfl
  · dsimp only [Except.toOption, Option.bind_some]
    cases (Output.chunks outcome.files).find? (·.isStaticEntry) <;> rfl

theorem note_eq (known : Dependencies) (answer : Except (List Failure) EntryAnalysis) :
    known.note answer = answer.toOption.elim known (known.merge ·.dependencies) := by
  cases answer <;> rfl

/-- The rest of a run begins where the first entry leaves off. -/
theorem analyzeEach_cons (entries : List Entry) (known : Dependencies) :
    analyzeEach compiler around (entry :: entries) known w =
      let first := entry.analyze compiler around w
      let rest := analyzeEach compiler around entries (known.note first.1) first.2
      (first.1 :: rest.1, rest.2) := rfl

/-- A run that stops where an entry fails knows the same where none does. -/
theorem analyzeEach_of_analyzeAll {found : Dependencies}
    (h : analyzeAll compiler around entries known w = (.ok found, w')) :
    (analyzeEach compiler around entries known w).2 = (found, w') := by
  induction entries generalizing known w with
  | nil =>
    obtain ⟨hfound, rfl⟩ := Prod.mk.inj h
    rw [analyzeEach, Except.ok.inj hfound]
  | cons entry entries ih =>
    obtain ⟨analysis, after, hanalysis, hrest⟩ := exists_analyze_of_analyzeAll h
    rw [analyzeEach_cons, hanalysis]
    exact ih hrest

/-- The calls of a run that succeed. -/
def calls (compiler : Compile.Compiler World) (s : Settings) (w : World) (entries : List Entry) :
    List Call :=
  entries.filterMap (·.call? compiler s w)

/-- **A run knows what the calls that succeed find,** and answers to each
entry what it would have answered at first. -/
theorem analyzeEach_known (h : Steady compiler around.settings w Same) (hw' : Same w') :
    (analyzeEach compiler around entries known w').1 =
        entries.map (fun entry => (entry.analyze compiler around w).1) ∧
      (analyzeEach compiler around entries known w').2.1 =
        (calls compiler around.settings w entries).foldl
          (fun known call => known.merge (call.found around)) known ∧
      Same (analyzeEach compiler around entries known w').2.2 := by
  induction entries generalizing known w' with
  | nil => exact ⟨rfl, rfl, hw'⟩
  | cons entry entries ih =>
    have hanswer := analyze_congr (h.answer entry w' hw')
    have hafter : Same (entry.analyze compiler around w').2 := by
      rw [analyze_world]
      exact h.stays entry w' hw'
    obtain ⟨hanswers, hknown, hsame⟩ := ih hafter
    rw [analyzeEach_cons]
    dsimp only
    refine ⟨?_, ?_, hsame⟩
    · rw [hanswers, hanswer, List.map_cons]
    · refine hknown.trans ?_
      rw [hanswer, note_eq, toOption_analyze, calls, calls, List.filterMap_cons]
      cases entry.call? compiler around.settings w <;> rfl

/-- What is known after a run that begins with nothing. -/
def knownAfter (compiler : Compile.Compiler World) (around : Surroundings) (w : World)
    (entries : List Entry) : Dependencies :=
  (analyzeEach compiler around entries .empty w).2.1

/-- The world after a run that begins with nothing. -/
def worldAfter (compiler : Compile.Compiler World) (around : Surroundings) (w : World)
    (entries : List Entry) : World :=
  (analyzeEach compiler around entries .empty w).2.2

/-- **How runs of an analysis add up.** -/
structure Accumulates (compiler : Compile.Compiler World) (around : Surroundings) (w : World) :
    Prop where
  /-- What is answered to an entry does not depend on what was before it. -/
  answers : ∀ entries, (analyzeEach compiler around entries .empty w).1 =
    entries.map fun entry => (entry.analyze compiler around w).1
  /-- What is known after a run is what its calls that succeed find. -/
  unites : ∀ entries,
    Unites around (calls compiler around.settings w entries) (knownAfter compiler around w entries)
  /-- An entry that fails might not have been there. -/
  failing : ∀ entries entry later failures,
    (entry.analyze compiler around (worldAfter compiler around w entries)).1 = .error failures →
      knownAfter compiler around w (entries ++ entry :: later) =
        knownAfter compiler around w (entries ++ later)
  /-- Nor might one that was there before. -/
  repeated : ∀ entries, ∀ entry ∈ entries, ∀ later,
    knownAfter compiler around w (entries ++ entry :: later) =
      knownAfter compiler around w (entries ++ later)
  /-- The order of the entries decides of nothing but which name and which
  root come first. -/
  permuted : ∀ entries entries', entries.Perm entries' →
    Alike (knownAfter compiler around w entries) (knownAfter compiler around w entries')

theorem knownAfter_eq (h : Steady compiler around.settings w Same) :
    knownAfter compiler around w entries =
      Call.union around (calls compiler around.settings w entries) :=
  (analyzeEach_known h h.start).2.1

/-- **Runs of an analysis add up,** whichever of their entries fail. -/
theorem analyzeEach_accumulates {current : Path} {o : Options}
    (hsettings : around.settings = o.settings current)
    (h : Steady compiler around.settings w Same) : Accumulates compiler around w := by
  have hignored : around.settings.isIgnored toolBindings :=
    hsettings ▸ isIgnored_toolBindings current o
  refine ⟨fun entries => (analyzeEach_known h h.start).1, fun entries => ?_,
    fun entries entry later failures hfails => ?_, fun entries entry hentry later => ?_,
    fun entries entries' hperm => ?_⟩
  · rw [knownAfter_eq h]
    exact unites_union hignored _
  · -- that it fails after the others shows that it would have at first
    have hsame : Same (worldAfter compiler around w entries) := (analyzeEach_known h h.start).2.2
    rw [analyze_congr (h.answer entry _ hsame)] at hfails
    have hnone : entry.call? compiler around.settings w = none := by
      refine Option.map_eq_none_iff.1 (toOption_analyze.symm.trans ?_)
      rw [hfails]
      rfl
    rw [knownAfter_eq h, knownAfter_eq h, calls, calls, List.filterMap_append,
      List.filterMap_append, List.filterMap_cons_none hnone]
  · rw [knownAfter_eq h, knownAfter_eq h, calls, calls, List.filterMap_append,
      List.filterMap_append]
    cases hcall : entry.call? compiler around.settings w with
    | none => rw [List.filterMap_cons_none hcall]
    | some call =>
      have hmem : call ∈ entries.filterMap (·.call? compiler around.settings w) :=
        List.mem_filterMap.2 ⟨entry, hentry, hcall⟩
      rw [List.filterMap_cons_some hcall, Call.union_of_mem hignored hmem]
  · rw [knownAfter_eq h, knownAfter_eq h]
    exact alike_of_perm hignored (hperm.filterMap _)

/-- Two packages of a workspace, one of them installed. -/
def shop : Surroundings where
  settings := ({} : Options).settings ⟨"/"⟩
  files := {
    entries := .ofList [(["node_modules"], .directory), (["node_modules", "ui"], .directory),
      (["node_modules", "ui", "package.json"],
        .file "\x7b\"name\":\"ui\",\"main\":\"ui.js\"\x7d".toUTF8),
      (["node_modules", "ui", "ui.js"], .file "export const Price = 1;".toUTF8)]
    workingPlace := [] }
  members := .ofList
    [("ui", { location := ⟨"/packages/ui"⟩ }), ("pad", { location := ⟨"/packages/pad"⟩ })]

/-- A page that reads two names from a package. -/
def cart : Entry := .inline "cart" "import \x7b Price, Button \x7d from 'ui'; Price(Button);"

/-- A page that reads one more, and may load another package. -/
def menu : Entry := .inline "menu"
  "import \x7b Button, Link \x7d from 'ui'; import('pad'); Link(Button);"

/-- Two pages, one that fails between them, and the first of them once more. -/
theorem shop_accumulates : Steady .onFiles shop.settings shop.files (· = shop.files) ∧
    Accumulates .onFiles shop shop.files ∧
    (knownAfter .onFiles shop shop.files [cart, loadsItself, menu, cart]).entries =
      [("ui", ⟨.named (.ofList ["Price", "Button", "Link"]), some ⟨"/node_modules/ui"⟩, true⟩),
        ("pad", ⟨.all, none, false⟩)] := by
  have hsteady := steady_onFiles shop.settings shop.files
  have hsettings : shop.settings = ({} : Options).settings ⟨"/"⟩ := rfl
  have haccumulates := analyzeEach_accumulates hsettings hsteady
  have hrepeated : knownAfter .onFiles shop shop.files [cart, loadsItself, menu, cart] =
      knownAfter .onFiles shop shop.files [cart, loadsItself, menu] :=
    haccumulates.repeated [cart, loadsItself, menu] cart (List.mem_cons_self ..) []
  refine ⟨hsteady, haccumulates, ?_⟩
  rw [hrepeated]
  decide +kernel

end DepBundle.Analysis
