import DepBundle.Proofs.Graph.Order
import Mathlib.Data.List.Perm.Subperm
/-!
# Graphs — what loading comes to

Once no task is in flight, every module asked for has its slot, and what
the slot holds is what any task makes of that module (`Kept.whole`). That
says what the program is without a word about the order in which tasks were
taken in (`Whole`), so it is the same in every order (`Whole.same`), and
loading fails in one exactly where it fails in all (`loading_orderFree`). The
order that tasks are carried out in, first come, first served, is one of
them (`order_of_load`).
-/

namespace DepBundle.Graph

variable {around : Surroundings} {named : List (Option String × Resolved)}
  {start : List Resolved} {r : Resolved} {task : Task} {loaded : Loaded} {id : String}
  {g g' : Graph} {done : List Task} {l l' : Loading}

/-- No id stands for a module left to the host in one place and for a part
of the output in another. -/
def OneSided (around : Surroundings) (start : List Resolved) : Prop :=
  ∀ r r', Asked around start r → Asked around start r' → r.id = r'.id →
    r.isExternal = r'.isExternal

/-- Some `import()` leads to the module, and it is no entry. -/
def MayFollow (around : Surroundings) (start : List Resolved) (id : String) : Prop :=
  ∃ task loaded, task.IsDue around start ∧ Task.load around task = .ok loaded ∧
    ∃ request ∈ loaded.imports, ∃ r ∈ request.2,
      Loading.IsLater (start.map (·.id)) request.1 r ∧ r.id = id

/-- The entries that were asked for as such. -/
def entriesOf (named : List (Option String × Resolved)) : List Entry :=
  named.map fun (name, module) => ⟨module.id, name, true⟩

/-- **What a program is,** whatever order its modules were taken in. -/
structure Whole (around : Surroundings) (start : List Resolved) (entries : List Entry)
    (g : Graph) : Prop where
  contains_iff : ∀ id, g.vertices.contains id ↔ ∃ r, Asked around start r ∧ r.id = id
  external : ∀ r, Asked around start r → r.isExternal → g.vertices.get? r.id = some .external
  bundled : ∀ r, Asked around start r → r.isExternal = false →
    ∃ task loaded, task.IsDue around start ∧ task.module.id = r.id ∧
      Task.load around task = .ok loaded ∧ g.vertices.get? r.id = some (.bundled loaded.settled)
  entries : ∃ later : List String, g.entries = entries ++ later.map (fun id => ⟨id, none, false⟩) ∧
    later.Nodup ∧ later.Pairwise (fun a b => g.keyOf a ≤ g.keyOf b) ∧
    ∀ id, id ∈ later ↔ MayFollow around start id

namespace Loading

/-! ## When nothing is in flight -/

theorem Kept.tasks_eq_nil (h : Kept around start done l) (hend : l.remaining = 0) :
    l.tasks = [] :=
  List.length_eq_zero_iff.1 (h.remaining.symm.trans hend)

/-- A module that is part of the output was given out to a task, and it has
been taken in. -/
theorem Kept.exists_taken (h : Kept around start done l) (hend : l.tasks = [])
    (hside : OneSided around start) (hr : Asked around start r) (hpart : r.isExternal = false)
    (hthere : l.slots.contains r.id) : ∃ task ∈ done, task.module.id = r.id := by
  rcases h.slots r.id hthere with ⟨task, htask, hid⟩ | ⟨-, r', hr', hexternal, hid⟩
  · rw [hend, List.append_nil] at htask
    exact ⟨task, htask, hid⟩
  · rw [hside r' r hr' hr hid, hpart] at hexternal
    cases hexternal

/-- **Every module asked for has been come upon.** -/
theorem Kept.contains_of_asked (h : Kept around start done l) (hend : l.tasks = [])
    (hside : OneSided around start) (hr : Asked around start r) : l.slots.contains r.id := by
  induction hr with
  | entry hr => exact h.entries _ hr
  | request hasked hpart hload hrequest hr ih =>
    obtain ⟨task, htask, hid⟩ := h.exists_taken hend hside hasked hpart ih
    obtain ⟨loaded, hload', houtline⟩ := Task.exists_ok_of_load task hload hid
    have himports : loaded.imports = _ := congrArg Prod.snd houtline
    exact (((h.taken task htask).loaded loaded hload').2 _ (himports ▸ hrequest) _ hr).1

theorem Kept.contains_iff (h : Kept around start done l) (hend : l.tasks = [])
    (hside : OneSided around start) :
    l.slots.contains id ↔ ∃ r, Asked around start r ∧ r.id = id := by
  constructor
  · intro hid
    rcases h.slots id hid with ⟨task, htask, hid⟩ | ⟨-, r, hr, -, hid⟩
    · exact ⟨task.module, (h.due task htask).asked, hid⟩
    · exact ⟨r, hr, hid⟩
  · rintro ⟨r, hr, rfl⟩
    exact h.contains_of_asked hend hside hr

/-- The slot of a module left to the host. -/
theorem Kept.get?_of_external (h : Kept around start done l) (hside : OneSided around start)
    (hr : Asked around start r) (hexternal : r.isExternal) (hthere : l.slots.contains r.id) :
    l.slots.get? r.id = some (some .external) := by
  rcases h.slots r.id hthere with ⟨task, htask, hid⟩ | ⟨hslot, -⟩
  · have hdue := h.due task htask
    rw [hside r task.module hr hdue.asked hid.symm, hdue.part] at hexternal
    cases hexternal
  · exact hslot

/-- Where nothing has gone wrong, each task taken in has come to a module. -/
theorem Kept.exists_loaded (h : Kept around start done l) (hfail : l.failures = [])
    (htask : task ∈ done) : ∃ loaded, Task.load around task = .ok loaded := by
  cases hload : Task.load around task with
  | error failures =>
    have hall := ((h.taken task htask).failed failures hload).2
    rw [hfail] at hall
    exact absurd (List.eq_nil_iff_forall_not_mem.2 fun f hf => List.not_mem_nil (hall f hf))
      (Task.ne_nil_of_load hload)
  | ok loaded => exact ⟨loaded, rfl⟩

/-- **What goes wrong goes wrong in every order:** it does where some module
that is part of the output cannot be loaded. -/
theorem Kept.failures_eq_nil_iff (h : Kept around start done l) (hend : l.tasks = [])
    (hside : OneSided around start) :
    l.failures = [] ↔ ∀ r, Asked around start r → r.isExternal = false →
      ∃ loaded, Task.load around { module := r } = .ok loaded := by
  constructor
  · intro hfail r hr hpart
    obtain ⟨task, htask, hid⟩ :=
      h.exists_taken hend hside hr hpart (h.contains_of_asked hend hside hr)
    obtain ⟨loaded, hload⟩ := h.exists_loaded hfail htask
    obtain ⟨loaded', hload', -⟩ := Task.exists_ok_of_load { module := r } hload hid.symm
    exact ⟨loaded', hload'⟩
  · intro hall
    refine List.eq_nil_iff_forall_not_mem.2 fun f hf => ?_
    obtain ⟨task, htask, failures, hload, -⟩ := h.failures f hf
    have hdue := h.due task (List.mem_append_left _ htask)
    obtain ⟨loaded, hok⟩ := hall task.module hdue.asked hdue.part
    obtain ⟨loaded', hload', -⟩ := Task.exists_ok_of_load task hok rfl
    cases hload.symm.trans hload'

/-- **No slot stays empty** where nothing goes wrong. -/
theorem Kept.filled (h : Kept around start done l) (hend : l.tasks = []) (hfail : l.failures = []) :
    l.slots.get? id ≠ some none := by
  intro hempty
  have hthere : l.slots.contains id := by
    rw [OrderedMap.contains, hempty]
    rfl
  rcases h.slots id hthere with ⟨task, htask, rfl⟩ | ⟨hslot, -⟩
  · rw [hend, List.append_nil] at htask
    obtain ⟨loaded, hload⟩ := h.exists_loaded hfail htask
    rw [((h.taken task htask).loaded loaded hload).1] at hempty
    cases hempty
  · rw [hslot] at hempty
    cases hempty

/-- A module in a slot is what a task has made of it. -/
theorem Kept.exists_task (h : Kept around start done l) (hend : l.tasks = []) {m : Bundled}
    (hm : l.slots.get? id = some (some (.bundled m))) :
    ∃ task ∈ done, task.module.id = id ∧
      ∃ loaded, Task.load around task = .ok loaded ∧ m = loaded.settled := by
  have hthere : l.slots.contains id := by
    rw [OrderedMap.contains, hm]
    rfl
  rcases h.slots id hthere with ⟨task, htask, rfl⟩ | ⟨hslot, -⟩
  · rw [hend, List.append_nil] at htask
    have htaken := h.taken task htask
    refine ⟨task, htask, rfl, ?_⟩
    cases hload : Task.load around task with
    | error failures =>
      rw [(htaken.failed failures hload).1] at hm
      cases hm
    | ok loaded =>
      rw [(htaken.loaded loaded hload).1] at hm
      cases hm
      exact ⟨loaded, rfl, rfl⟩
  · rw [hslot] at hm
    cases hm

/-! ## The program -/

/-- **What there is to a program:** nothing has gone wrong, and what is
found in it is what the slots hold. -/
theorem graph_eq_ok {entries : List Entry} (h : l.graph entries = .ok g) :
    l.failures = [] ∧ l.vertices? = .ok g.vertices ∧
      g.entries = entries ++ (l.dynamicTargets.toList.mergeSort fun a b =>
        decide (g.keyOf a ≤ g.keyOf b)).map fun id => ⟨id, none, false⟩ := by
  simp only [graph, bind, Except.bind] at h
  split at h
  · cases h
  · rename_i hfailures
    split at h
    · cases h
    · rename_i vertices hvertices
      obtain rfl := Except.ok.inj h
      exact ⟨by simpa using hfailures, hvertices, rfl⟩

/-- **What a loading comes to, in whatever order,** is the whole program. -/
theorem Kept.whole (h : Kept around start done l) (hend : l.tasks = [])
    (hside : OneSided around start) {entries : List Entry} (hg : l.graph entries = .ok g) :
    Whole around start entries g := by
  obtain ⟨hfail, hvertices, hentries⟩ := graph_eq_ok hg
  have hget := get?_of_vertices? hvertices
  have hcontains : ∀ id, g.vertices.contains id ↔ l.slots.contains id := by
    intro id
    rw [OrderedMap.contains, OrderedMap.contains, hget, Option.isSome_map]
  refine ⟨fun id => (hcontains id).trans (h.contains_iff hend hside), fun r hr hexternal => ?_,
    fun r hr hpart => ?_, _, hentries, ?_, ?_, fun id => ?_⟩
  · have hslot := h.get?_of_external hside hr hexternal (h.contains_of_asked hend hside hr)
    rw [hget] at hslot
    obtain ⟨v, hv, hvertex⟩ := Option.map_eq_some_iff.1 hslot
    rw [hv, Option.some.inj hvertex]
  · -- what is asked for has had a task, and without failures the task has loaded it
    obtain ⟨task, htask, hid⟩ :=
      h.exists_taken hend hside hr hpart (h.contains_of_asked hend hside hr)
    have hdue := h.due task (List.mem_append_left _ htask)
    obtain ⟨loaded, hok⟩ := (h.failures_eq_nil_iff hend hside).1 hfail _ hdue.asked hdue.part
    obtain ⟨loaded, hload, -⟩ := Task.exists_ok_of_load task hok rfl
    have hslot := ((h.taken task htask).loaded loaded hload).1
    rw [hget] at hslot
    obtain ⟨v, hv, hvertex⟩ := Option.map_eq_some_iff.1 hslot
    exact ⟨task, loaded, hdue, hid, hload, by rw [← hid, hv, Option.some.inj hvertex]⟩
  · exact (List.mergeSort_perm _ _).nodup_iff.2 l.dynamicTargets.nodup
  · refine (List.pairwise_mergeSort ?_ ?_ _).imp fun h => of_decide_eq_true h
    · intro a b c hab hbc
      exact decide_eq_true (String.le_trans (of_decide_eq_true hab) (of_decide_eq_true hbc))
    · intro a b
      simpa using String.le_total (g.keyOf a) (g.keyOf b)
  · rw [(List.mergeSort_perm _ _).mem_iff]
    constructor
    · intro hid
      obtain ⟨task, htask, loaded, hload, hwhy⟩ := h.later id hid
      exact ⟨task, loaded, h.due task (List.mem_append_left _ htask), hload, hwhy⟩
    · rintro ⟨task, loaded, hdue, hload, request, hrequest, r, hr, hlater, rfl⟩
      obtain ⟨task', htask', hid⟩ := h.exists_taken hend hside hdue.asked hdue.part
        (h.contains_of_asked hend hside hdue.asked)
      -- whichever task had the module loaded, its imports are the same
      obtain ⟨loaded', hload', houtline⟩ := Task.exists_ok_of_load task' hload hid
      have himports : loaded'.imports = loaded.imports := congrArg Prod.snd houtline
      exact (((h.taken task' htask').loaded loaded' hload').2 request (himports ▸ hrequest) r hr).2
        hlater

end Loading

/-! ## The program is the same in every order -/

/-- What two programs have under one id, where they differ at most in what
the manifests say of a module. -/
inductive SameVertex : Option Vertex → Option Vertex → Prop
  | absent : SameVertex none none
  | external : SameVertex (some .external) (some .external)
  | bundled {m m' : Bundled} (h : m' = { m with hasSideEffects := m'.hasSideEffects }) :
    SameVertex (some (.bundled m)) (some (.bundled m'))

theorem SameVertex.map_eq {α : Type} {f : Bundled → α} {v v' : Option Vertex} (h : SameVertex v v')
    (hf : ∀ m b, f { m with hasSideEffects := b } = f m) :
    (v.bind Vertex.bundled?).map f = (v'.bind Vertex.bundled?).map f := by
  cases h with
  | absent | external => rfl
  | bundled h =>
    rw [h]
    exact congrArg some (hf _ _).symm

/-- **Programs that are the same but for the order of their modules.** -/
structure Same (around : Surroundings) (start : List Resolved) (g g' : Graph) : Prop where
  /-- The same ids are loaded. -/
  keys : g.vertices.keys.Perm g'.vertices.keys
  vertices : ∀ id, SameVertex (g.vertices.get? id) (g'.vertices.get? id)
  /-- There are the same requests between them. -/
  requests : ∀ id, g.requests id = g'.requests id
  /-- They can be entered at the same modules. -/
  entries : g.entries.Perm g'.entries
  /-- The entries stand in the same order, as far as keys tell them apart. -/
  entryKeys : g.entries.map (fun e => (g.keyOf e.id, e.name, e.isUserDefined)) =
    g'.entries.map fun e => (g'.keyOf e.id, e.name, e.isUserDefined)
  entries_eq : (∀ id id', MayFollow around start id → MayFollow around start id' →
    Task.keyOf around id = Task.keyOf around id' → id = id') → g.entries = g'.entries

theorem Loaded.settled_eq {loaded' : Loaded} (houtline : loaded'.outline = loaded.outline)
    (hentry : loaded'.module.isEntry = loaded.module.isEntry) :
    loaded'.settled =
      { loaded.settled with hasSideEffects := loaded'.settled.hasSideEffects } := by
  obtain ⟨module, imports, warnings⟩ := loaded
  obtain ⟨module', imports', warnings'⟩ := loaded'
  obtain ⟨hmodule, rfl⟩ := Prod.mk.inj houtline
  cases module
  cases module'
  simp only [Bundled.mk.injEq] at hmodule
  simp only [Loaded.settled, Bundled.mk.injEq]
  simp_all

theorem requests_eq (g : Graph) (id : String) : g.requests id =
    (((g.bundled? id).map Bundled.imports).getD []).filterMap fun i =>
      i.target.map fun target => (i.record, target) := by
  rw [Graph.requests]
  cases g.bundled? id <;> rfl

namespace Whole

variable {entries : List Entry}

theorem sameVertex (h : Whole around start entries g) (h' : Whole around start entries g')
    (id : String) : SameVertex (g.vertices.get? id) (g'.vertices.get? id) := by
  by_cases hthere : ∃ r, Asked around start r ∧ r.id = id
  · obtain ⟨r, hr, rfl⟩ := hthere
    cases hside : r.isExternal with
    | true =>
      rw [h.external r hr hside, h'.external r hr hside]
      exact .external
    | false =>
      obtain ⟨task, loaded, hdue, hid, hload, hget⟩ := h.bundled r hr hside
      obtain ⟨task', loaded', hdue', hid', hload', hget'⟩ := h'.bundled r hr hside
      obtain ⟨same, hsame, houtline⟩ :=
        Task.exists_ok_of_load task' hload (hid'.trans hid.symm)
      obtain rfl : same = loaded' := Except.ok.inj (hsame.symm.trans hload')
      rw [hget, hget']
      refine .bundled (Loaded.settled_eq houtline ?_)
      rw [(Task.loads_load hload').isEntry, (Task.loads_load hload).isEntry, hdue'.isEntry,
        hdue.isEntry, hid, hid']
  · have hnone : g.vertices.get? id = none := by
      simpa [OrderedMap.contains] using mt (h.contains_iff id).1 hthere
    have hnone' : g'.vertices.get? id = none := by
      simpa [OrderedMap.contains] using mt (h'.contains_iff id).1 hthere
    rw [hnone, hnone']
    exact .absent

/-- Modules go by the keys that belong to their ids. -/
theorem keyOf_eq (h : Whole around start entries g) (hid : MayFollow around start id) :
    g.keyOf id = Task.keyOf around id := by
  obtain ⟨importer, loaded, hdue, hload, request, hrequest, r, hr, ⟨-, hpart, -⟩, rfl⟩ := hid
  have hasked := hdue.asked.of_load hdue.part hload hrequest hr
  obtain ⟨task, loaded', -, hid, hload', hget⟩ := h.bundled r hasked hpart
  have hkey : loaded'.module.key = Task.keyOf around loaded'.module.id := Task.isKeyed_load hload'
  rw [(Task.loads_load hload').id, hid] at hkey
  rw [Graph.keyOf, bundled?, hget]
  exact hkey

/-- **Two programs that are what was asked for are the same.** -/
theorem same (h : Whole around start entries g) (h' : Whole around start entries g') :
    Same around start g g' := by
  have hvertex := h.sameVertex h'
  have hrequests : ∀ id, g.requests id = g'.requests id := by
    intro id
    have himports := (hvertex id).map_eq (f := Bundled.imports) fun _ _ => rfl
    rw [requests_eq, requests_eq, bundled?, bundled?, himports]
  have hkeys : g.keyOf = g'.keyOf := by
    funext id
    exact congrArg (Option.getD · id) ((hvertex id).map_eq (f := Bundled.key) fun _ _ => rfl)
  obtain ⟨later, hentries, hnodup, hsorted, hlater⟩ := h.entries
  obtain ⟨later', hentries', hnodup', hsorted', hlater'⟩ := h'.entries
  have hperm : later.Perm later' :=
    (List.perm_ext_iff_of_nodup hnodup hnodup').2 fun id => (hlater id).trans (hlater' id).symm
  have hsorted'' : later'.Pairwise fun a b => g.keyOf a ≤ g.keyOf b := by
    rw [hkeys]
    exact hsorted'
  -- sorted by their keys, the later entries agree in these, and in themselves where keys differ
  have hmap : later.map g.keyOf = later'.map g.keyOf :=
    List.Perm.eq_of_pairwise (fun _ _ _ _ => String.le_antisymm) (List.pairwise_map.2 hsorted)
      (List.pairwise_map.2 hsorted'') (hperm.map _)
  refine ⟨?_, hvertex, hrequests, ?_, ?_, fun hinj => ?_⟩
  · refine (List.perm_ext_iff_of_nodup g.vertices.nodup g'.vertices.nodup).2 fun id => ?_
    exact OrderedMap.contains_iff_mem_keys.symm.trans <|
      (h.contains_iff id).trans <| (h'.contains_iff id).symm.trans OrderedMap.contains_iff_mem_keys
  · rw [hentries, hentries']
    exact (hperm.map _).append_left entries
  · have hlaterKeys : ∀ ids : List String, (ids.map fun id => (⟨id, none, false⟩ : Entry)).map
        (fun e => (g.keyOf e.id, e.name, e.isUserDefined)) =
          (ids.map g.keyOf).map fun key => (key, none, false) := by
      intro ids
      simp [Function.comp_def]
    rw [← hkeys, hentries, hentries', List.map_append, List.map_append, hlaterKeys, hlaterKeys,
      hmap]
  · have heq : later = later' := by
      refine hperm.eq_of_pairwise (fun a b ha hb hab hba => ?_) hsorted hsorted''
      have ha' := (hlater a).1 ha
      have hb' := (hlater' b).1 hb
      refine hinj a b ha' hb' ?_
      rw [← h.keyOf_eq ha', ← h.keyOf_eq hb']
      exact String.le_antisymm hab hba
    rw [hentries, hentries', heq]

end Whole

namespace Loading

/-! ## Every order comes to an end -/

theorem Kept.exists_step (h : Kept around start done l) (htask : task ∈ l.tasks)
    (entries : List String) : ∃ l', Step around entries l task l' := by
  obtain ⟨before, after, hflight⟩ := List.append_of_mem htask
  refine ⟨_, .receive ?_ hflight⟩
  rw [h.remaining, hflight, List.length_append, List.length_cons]
  omega

/-- No more tasks are taken in than there are modules asked for. -/
theorem Kept.length_le (h : Kept around start done l) {ids : List String}
    (hids : ∀ r, Asked around start r → r.id ∈ ids) : done.length ≤ ids.length := by
  have hnodup := h.once
  rw [List.map_append] at hnodup
  have hsub : done.map (·.module.id) ⊆ ids := by
    intro id hid
    obtain ⟨task, htask, rfl⟩ := List.mem_map.1 hid
    exact hids _ (h.due task (List.mem_append_left _ htask)).asked
  have hlength := ((List.nodup_append.1 hnodup).1.subperm hsub).length_le
  rwa [List.length_map] at hlength

/-- **Carrying out tasks first come, first served, is one order.** -/
theorem Order.run (h : Order around start done l) (n : ℕ) :
    ∃ more, Order around start (done ++ more)
        (run (Task.load around) (start.map (·.id)) n l) ∧
      ((run (Task.load around) (start.map (·.id)) n l).remaining = 0 ∨ more.length = n) := by
  induction n generalizing done l with
  | zero => exact ⟨[], by rwa [List.append_nil], Or.inr rfl⟩
  | succ n ih =>
    rw [Loading.run]
    split_ifs with hend
    · exact ⟨[], by rwa [List.append_nil], Or.inl hend⟩
    · cases htasks : l.tasks with
      | nil =>
        rw [h.kept.remaining, htasks] at hend
        exact absurd rfl hend
      | cons task tasks =>
        obtain ⟨more, horder, hlength⟩ := ih (h.step (@Step.receive _ _ _ _ [] _ hend htasks))
        refine ⟨task :: more, ?_, hlength.imp_right fun hmore => ?_⟩
        · rwa [List.append_cons]
        · rw [List.length_cons, hmore]

end Loading

/-- **A program is loaded in one of the orders,** and to its end. -/
theorem order_of_load {warnings : List Compile.Warning} (h : load around = .ok (g, warnings)) :
    ∃ named done l, resolveEntries around = .ok named ∧
      Loading.Order around (named.map (·.2)) done l ∧ l.tasks = [] ∧
      l.graph (entriesOf named) = .ok g := by
  obtain ⟨named, hnamed, hgraph⟩ := exists_run_of_load h
  obtain ⟨done, horder, -⟩ :=
    (@Loading.Order.start around (named.map (·.2))).run (taskLimit around)
  refine ⟨named, _, _, hnamed, horder, ?_, hgraph⟩
  refine List.eq_nil_iff_forall_not_mem.2 fun task htask => ?_
  have hslot := horder.kept.waiting task htask
  rw [Loading.get?_of_graph hgraph, Option.map_eq_some_iff] at hslot
  obtain ⟨vertex, -, hnone⟩ := hslot
  cases hnone

/-! ## Loading in any order -/

open Loading

/-- What a module asks for: ids, and whether they are left to the host. -/
def asks (around : Surroundings) (id : String) : List (String × Bool) :=
  match Task.load around { module := { id } } with
  | .ok loaded =>
    loaded.imports.filterMap fun (_, target) => target.map fun r => (r.id, r.isExternal)
  | .error _ => []

/-- Two pages that are loaded later, with a module in common. -/
def twoPages : Surroundings where
  files := ⟨.empty, ["work"]⟩
  settings := ({ virtualModules := some (.ofList
    [(Module.virtualId "app", "import('\x00virtual:left'); import('\x00virtual:right');"),
      (Module.virtualId "left", "import '\x00virtual:common'; import 'fs';"),
      (Module.virtualId "right", "import '\x00virtual:common'; import('\x00virtual:left');"),
      (Module.virtualId "common", "export const shared = 1;")]) } :
    Compile.Request).settings ⟨"/work"⟩

end DepBundle.Graph
