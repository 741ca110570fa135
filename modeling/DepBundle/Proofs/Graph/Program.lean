import DepBundle.Proofs.Graph.Outcome
import DepBundle.Proofs.Graph.Reach
/-!
# Graphs — what a program that was loaded is like

Every part of the output is there because an entry is or because some
module that was loaded asks for it (`Led`). So all of it is in the order
that modules run in, and all of it is reached by the entries that were
asked for, where what is loaded later counts (`load_program`).
-/

namespace DepBundle.Graph

variable {around : Surroundings} {named : List (Option String × Resolved)}
  {start : List Resolved} {r : Resolved} {task : Task} {loaded : Loaded} {id : String} {g : Graph}
  {done : List Task} {l l' : Loading}

/-- Why a module is loaded: it is an entry, or a module that was loaded asks
for it. -/
inductive Led (around : Surroundings) (start : List Resolved) (done : List Task) : Resolved → Prop
  | entry {r : Resolved} (h : r ∈ start) : Led around start done r
  | request {task : Task} {loaded : Loaded} {r : Resolved}
    {request : Module.Record × Option Resolved} (hled : Led around start done task.module)
    (htask : task ∈ done) (hload : Task.load around task = .ok loaded)
    (hrequest : request ∈ loaded.imports) (hr : r ∈ request.2) (hpart : r.isExternal = false) :
    Led around start done r

theorem Led.mono (h : Led around start done r) (task : Task) :
    Led around start (done ++ [task]) r := by
  induction h with
  | entry h => exact .entry h
  | request _ htask hload hrequest hr hpart ih =>
    exact .request ih (List.mem_append_left _ htask) hload hrequest hr hpart

namespace Loading

variable {entries : List String} {t : Task}

/-- Asking gives out no task but the one that it may be for. -/
theorem mem_tasks_ask (h : t ∈ (l.ask task).tasks) : t ∈ l.tasks ∨ t = task := by
  rcases ask_cases l task with ⟨-, heq⟩ | ⟨-, -, heq⟩ | ⟨-, -, heq⟩
  · exact Or.inl (heq ▸ h)
  · exact Or.inl (by rwa [heq] at h)
  · rw [heq] at h
    simpa using h

theorem mem_tasks_ofEntries (h : t ∈ (ofEntries start).tasks) : t.module ∈ start := by
  have hfold := List.foldlRecOn (motive := fun l : Loading => ∀ t ∈ l.tasks, t.module ∈ start)
    start (fun l module => l.ask { module, isEntry := true }) (b := {}) (by simp)
    fun l hl r hr t ht => by
      rcases mem_tasks_ask ht with ht | rfl
      · exact hl t ht
      · exact hr
  exact hfold t h

theorem mem_tasks_follow {owner : Bundled} {request : Module.Record × Option Resolved}
    (h : t ∈ (follow entries owner l request).tasks) : t ∈ l.tasks ∨ t.module ∈ request.2 := by
  obtain ⟨record, _ | target⟩ := request
  · exact Or.inl h
  · have hask : t ∈ (l.ask { module := target, owner := some owner.key }).tasks := by
      rw [follow] at h
      split at h <;> exact h
    rcases mem_tasks_ask hask with ht | rfl
    · exact Or.inl ht
    · exact Or.inr rfl

theorem mem_tasks_followed (h : t ∈ (followed entries l loaded).tasks) :
    t ∈ l.tasks ∨ ∃ request ∈ loaded.imports, t.module ∈ request.2 := by
  have hfold := List.foldlRecOn
    (motive := fun l' : Loading => ∀ t ∈ l'.tasks,
      t ∈ l.tasks ∨ ∃ request ∈ loaded.imports, t.module ∈ request.2)
    loaded.imports (follow entries loaded.module)
    (b := { l with warnings := l.warnings ++ loaded.warnings }) (fun t ht => Or.inl ht)
    fun l' hl' request hrequest t ht => by
      rcases mem_tasks_follow ht with ht | ht
      · exact hl' t ht
      · exact Or.inr ⟨request, hrequest, ht⟩
  exact hfold t h

/-- What taking in a task leaves in flight: the others, and tasks for what
its module asks for. -/
theorem Step.mem_tasks (hstep : Step around entries l task l') (h : t ∈ l'.tasks) :
    t ∈ l.tasks ∨ ∃ loaded, Task.load around task = .ok loaded ∧
      ∃ request ∈ loaded.imports, t.module ∈ request.2 := by
  obtain ⟨-, hflight⟩ := hstep
  have hrest : ∀ {t}, t ∈ _ ++ _ → t ∈ l.tasks := fun {t} ht =>
    hflight ▸ List.perm_middle.symm.subset (List.mem_cons_of_mem _ ht)
  cases hload : Task.load around task with
  | error failures =>
    rw [hload] at h
    exact Or.inl (hrest h)
  | ok loaded =>
    rw [hload] at h
    rcases mem_tasks_followed h with ht | hwhy
    · exact Or.inl (hrest ht)
    · exact Or.inr ⟨loaded, rfl, hwhy⟩

/-- A task in flight stays in flight unless it is the one taken in. -/
theorem Step.mem_of_mem (hstep : Step around entries l task l') (h : t ∈ l.tasks) :
    t = task ∨ t ∈ l'.tasks := by
  obtain ⟨-, hflight⟩ := hstep
  rw [hflight] at h
  rcases List.mem_cons.1 (List.perm_middle.subset h) with rfl | h
  · exact Or.inl rfl
  · right
    cases hload : Task.load around task with
    | error failures => exact h
    | ok loaded =>
      obtain ⟨more, htasks, -⟩ := (follows_followed entries loaded _).tasks
      rw [receive_ok, htasks]
      exact List.mem_append_left _ h

theorem Step.mem_self (hstep : Step around entries l task l') : task ∈ l.tasks := by
  obtain ⟨-, hflight⟩ := hstep
  rw [hflight]
  exact List.mem_append_right _ (List.mem_cons_self ..)

/-- **No module is loaded without a reason.** -/
theorem Order.led (h : Order around start done l) :
    ∀ task ∈ done ++ l.tasks, Led around start done task.module := by
  induction h with
  | start => exact fun task htask => .entry (mem_tasks_ofEntries htask)
  | @step done l l' task horder hstep ih =>
    have hself := ih task (List.mem_append_right _ hstep.mem_self)
    intro t ht
    have hdue := (horder.step hstep).kept.due t ht
    rw [List.append_assoc, List.mem_append, List.singleton_append, List.mem_cons] at ht
    rcases ht with ht | rfl | ht
    · exact (ih t (List.mem_append_left _ ht)).mono task
    · exact hself.mono t
    · rcases hstep.mem_tasks ht with ht | ⟨loaded, hload, request, hrequest, hr⟩
      · exact (ih t (List.mem_append_right _ ht)).mono task
      · exact .request (hself.mono task) (List.mem_append_right _ (List.mem_singleton_self _)) hload
          hrequest hr hdue.part

/-- A task for an entry is given out at once and never lost. -/
theorem Order.mem_of_start (h : Order around start done l) (ht : t ∈ (ofEntries start).tasks) :
    t ∈ done ++ l.tasks := by
  induction h with
  | start => exact ht
  | @step done l l' task _ hstep ih =>
    rcases List.mem_append.1 ih with ih | ih
    · exact List.mem_append_left _ (List.mem_append_left _ ih)
    · rcases hstep.mem_of_mem ih with rfl | ih
      · exact List.mem_append_left _ (List.mem_append_right _ (List.mem_singleton_self _))
      · exact List.mem_append_right _ ih

/-- Where no entry is left to the host, each is given out to a task. -/
theorem exists_task_ofEntries (around : Surroundings)
    (hpart : ∀ r ∈ start, r.isExternal = false) (hr : r ∈ start) :
    ∃ task ∈ (ofEntries start).tasks, task.module.id = r.id := by
  have hnone := List.foldlRecOn
    (motive := fun l : Loading => ∀ id, l.slots.get? id ≠ some (some .external))
    start (fun l module => l.ask { module, isEntry := true }) (b := {}) (by simp)
    fun l hl r hr id => by
      rcases ask_cases l { module := r, isEntry := true } with
        ⟨-, heq⟩ | ⟨-, hexternal, -⟩ | ⟨-, -, heq⟩
      · rw [heq]
        exact hl id
      · rw [hpart r hr] at hexternal
        cases hexternal
      · rw [heq, OrderedMap.get?_insert]
        split
        · simp
        · exact hl id
  rcases (kept_ofEntries around start).slots r.id (contains_ofEntries.2 ⟨r, hr, rfl⟩) with
    ⟨task, htask, hid⟩ | ⟨hslot, -⟩
  · exact ⟨task, by simpa using htask, hid⟩
  · exact absurd hslot (hnone r.id)

end Loading

/-! ## The program -/

/-- Entries that are left to the host are refused. -/
theorem part_of_resolveEntries (h : resolveEntries around = .ok named) :
    ∀ r ∈ named.map (·.2), r.isExternal = false := by
  simp only [resolveEntries] at h
  split at h
  · obtain rfl := Except.ok.inj h
    intro r hr
    obtain ⟨p, hp, rfl⟩ := List.mem_map.1 hr
    obtain ⟨result, hresult, hok⟩ := List.mem_filterMap.1 hp
    obtain ⟨input, -, rfl⟩ := List.mem_map.1 hresult
    split at hok
    · split at hok
      · cases hok
      · rename_i hpart
        obtain rfl := Option.some.inj hok
        simpa using hpart
    · cases hok
  · cases h

/-- One entry stands for one module. -/
theorem resolveEntries_single {input : Compile.Input} (hinput : around.settings.input = [input])
    (h : resolveEntries around = .ok named) : ∃ r, named = [(input.name, r)] ∧
      Resolved.ofSpecifier around.files around.settings input.specifier none .statement true =
        .ok r ∧ r.isExternal = false := by
  simp only [resolveEntries, hinput, List.map_cons, List.map_nil] at h
  split at h
  · -- nothing is wrong with the entry, so it stands for something
    rename_i hfailures
    cases hr : Resolved.ofSpecifier around.files around.settings input.specifier none .statement
        true with
    | error cause => simp [hr] at hfailures
    | ok r =>
      cases hexternal : r.isExternal with
      | true => simp [hr, hexternal] at hfailures
      | false =>
        refine ⟨r, ?_, rfl, hexternal⟩
        simpa [hr, hexternal, Except.toOption] using h.symm
  · cases h

/-- Entries that all stand for a module of the output stand for that. -/
theorem resolveEntries_of_forall {f : Compile.Input → Resolved}
    (h : ∀ input ∈ around.settings.input,
      Resolved.ofSpecifier around.files around.settings input.specifier none .statement true =
        .ok (f input) ∧ (f input).isExternal = false) :
    resolveEntries around = .ok (around.settings.input.map fun input => (input.name, f input)) := by
  simp only [resolveEntries]
  split
  · rw [List.filterMap_map, ← List.filterMap_eq_map]
    refine congrArg Except.ok (List.filterMap_congr fun input hinput => ?_)
    simp [h input hinput, Except.toOption]
  · rename_i hfailures
    refine absurd (List.filterMap_eq_nil_iff.2 fun result hresult => ?_) hfailures
    obtain ⟨input, hinput, rfl⟩ := List.mem_map.1 hresult
    simp [h input hinput]

/-- **What a program that was loaded is like.** -/
structure Program (around : Surroundings) (named : List (Option String × Resolved)) (g : Graph) :
    Prop where
  /-- The entries asked for come first, then those that `import()` makes. -/
  entries : ∃ later : List String,
    g.entries = entriesOf named ++ later.map fun id => ⟨id, none, false⟩
  /-- The entries asked for are parts of the output. -/
  entry : ∀ e ∈ entriesOf named, (g.bundled? e.id).isSome
  /-- A part of the output is what a task has made of a module. -/
  made : ∀ id m, g.bundled? id = some m → ∃ task loaded, task.module.id = id ∧
    Task.load around task = .ok loaded ∧ m = loaded.settled
  /-- All of it is in the order that modules run in. -/
  runs : ∀ id, (g.bundled? id).isSome → id ∈ g.runOrder
  /-- All of it is reached by the entries asked for, and by what may be
  loaded later from there. -/
  reached : ∀ id, (g.bundled? id).isSome → ∃ e ∈ entriesOf named, g.Reaches true e.id id

/-- What a loaded module asks for are the requests of its module. -/
theorem mem_requests_of_settled (hm : g.bundled? id = some loaded.settled)
    {request : Module.Record × Option Resolved} (hrequest : request ∈ loaded.imports)
    (hr : r ∈ request.2) : (request.1, r.id) ∈ g.requests id := by
  rw [Graph.requests, hm]
  refine List.mem_filterMap.2 ⟨⟨request.1, request.2.map (·.id)⟩, ?_, ?_⟩
  · exact List.mem_map.2 ⟨request, hrequest, rfl⟩
  · rw [Option.mem_def.1 hr]
    rfl

/-- A part of the output is drawn in by what asks for it, now or later. -/
theorem draws_of_mem_requests {record : Module.Record} {a b : String}
    (h : (record, b) ∈ g.requests a) (hb : (g.bundled? b).isSome) : g.Draws true a b := by
  refine ⟨hb, ?_⟩
  cases hkind : record.kind.isStatic with
  | true => exact Or.inl ⟨record, h, hkind⟩
  | false => exact Or.inr ⟨rfl, record, h, hkind⟩

theorem mem_entriesOf_iff :
    (∃ e ∈ entriesOf named, e.id = id) ↔ id ∈ (named.map (·.2)).map (·.id) := by
  simp [entriesOf]

namespace Loading

variable {entries : List Entry}

theorem bundled?_of_slot (hgraph : l.graph entries = .ok g) {m : Bundled}
    (hslot : l.slots.get? id = some (some (.bundled m))) : g.bundled? id = some m := by
  rw [get?_of_graph hgraph] at hslot
  obtain ⟨v, hv, hvm⟩ := Option.map_eq_some_iff.1 hslot
  rw [bundled?, hv, Option.some.inj hvm]
  rfl

/-- A task that was taken in has come to a part of the output. -/
theorem Kept.bundled_of_taken (h : Kept around start done l) (hgraph : l.graph entries = .ok g)
    (htask : task ∈ done) : ∃ loaded, Task.load around task = .ok loaded ∧
      g.bundled? task.module.id = some loaded.settled := by
  obtain ⟨loaded, hload⟩ := h.exists_loaded (graph_eq_ok hgraph).1 htask
  exact ⟨loaded, hload, bundled?_of_slot hgraph ((h.taken task htask).loaded loaded hload).1⟩

/-- A part of the output is what a task that was taken in has come to. -/
theorem Kept.exists_taken_of_bundled (h : Kept around start done l) (hend : l.tasks = [])
    (hgraph : l.graph entries = .ok g) {m : Bundled} (hm : g.bundled? id = some m) :
    ∃ task ∈ done, task.module.id = id ∧
      ∃ loaded, Task.load around task = .ok loaded ∧ m = loaded.settled :=
  h.exists_task hend (get?_of_bundled (get?_of_graph hgraph) hm)

/-- A module is an entry where it was asked for as one or where some
`import()` leads to it. -/
theorem exists_entry (hgraph : l.graph (entriesOf named) = .ok g)
    (hid : id ∈ (named.map (·.2)).map (·.id) ∨ id ∈ l.dynamicTargets) :
    ∃ e ∈ g.entries, e.id = id := by
  rw [(graph_eq_ok hgraph).2.2]
  rcases hid with hid | hid
  · obtain ⟨e, he, rfl⟩ := mem_entriesOf_iff.2 hid
    exact ⟨e, List.mem_append_left _ he, rfl⟩
  · refine ⟨⟨id, none, false⟩, List.mem_append_right _ (List.mem_map_of_mem ?_), rfl⟩
    exact List.mem_mergeSort.2 hid

/-- **What was led to runs and is reached.** What some `import()` leads to
is an entry itself. -/
theorem Kept.reached_of_led (h : Kept around (named.map (·.2)) done l)
    (hgraph : l.graph (entriesOf named) = .ok g) (hled : Led around (named.map (·.2)) done r)
    (hthere : (g.bundled? r.id).isSome) :
    r.id ∈ g.runOrder ∧ ∃ e ∈ entriesOf named, g.Reaches true e.id r.id := by
  -- by why the module was loaded: what asks for it runs and is reached already
  induction hled with
  | entry hr =>
    have hid := List.mem_map_of_mem (f := (·.id)) hr
    refine ⟨mem_runOrder_of_entry (exists_entry hgraph (Or.inl hid))
      (contains_of_bundled hthere), ?_⟩
    obtain ⟨e, he, heq⟩ := mem_entriesOf_iff.2 hid
    rw [← heq] at hthere ⊢
    exact ⟨e, he, hthere, .refl⟩
  | @request task loaded r request _ htask hload hrequest hr hpart ih =>
    obtain ⟨loaded', hload', hm⟩ := h.bundled_of_taken hgraph htask
    obtain rfl : loaded = loaded' := Except.ok.inj (hload.symm.trans hload')
    have hasks := mem_requests_of_settled hm hrequest hr
    obtain ⟨hruns, e, he, hreaches⟩ := ih (by rw [hm]; rfl)
    refine ⟨?_, e, he, hreaches.draws (draws_of_mem_requests hasks hthere)⟩
    cases hkind : request.1.kind.isStatic with
    | true => exact mem_runOrder_of_asksFor hruns ⟨_, hasks, hkind⟩ (contains_of_bundled hthere)
    | false =>
      refine mem_runOrder_of_entry (exists_entry hgraph ?_) (contains_of_bundled hthere)
      by_cases hid : r.id ∈ (named.map (·.2)).map (·.id)
      · exact Or.inl hid
      · have hlater : IsLater ((named.map (·.2)).map (·.id)) request.1 r := by
          refine ⟨?_, hpart, hid⟩
          revert hkind
          cases request.1.kind <;> simp [Module.ImportKind.isStatic]
        have htaken := (h.taken task htask).loaded loaded hload
        exact Or.inr ((htaken.2 request hrequest r hr).2 hlater)

end Loading

/-- **A program that was loaded is all there and all reached.** -/
theorem load_program {warnings : List Compile.Warning} (h : load around = .ok (g, warnings)) :
    ∃ named, resolveEntries around = .ok named ∧ Program around named g := by
  obtain ⟨named, done, l, hnamed, horder, hend, hgraph⟩ := order_of_load h
  have hkept := horder.kept
  have hreached : ∀ id, (g.bundled? id).isSome →
      id ∈ g.runOrder ∧ ∃ e ∈ entriesOf named, g.Reaches true e.id id := by
    intro id hid
    obtain ⟨m, hm⟩ := Option.isSome_iff_exists.1 hid
    obtain ⟨task, htask, rfl, -⟩ := hkept.exists_taken_of_bundled hend hgraph hm
    exact hkept.reached_of_led hgraph (horder.led task (List.mem_append_left _ htask)) hid
  refine ⟨named, hnamed, ⟨_, (Loading.graph_eq_ok hgraph).2.2⟩, fun e he => ?_, fun id m hm => ?_,
    fun id hid => (hreached id hid).1, fun id hid => (hreached id hid).2⟩
  · obtain ⟨p, hp, rfl⟩ := List.mem_map.1 he
    obtain ⟨task, htask, hid⟩ := Loading.exists_task_ofEntries around
      (part_of_resolveEntries hnamed) (List.mem_map_of_mem hp)
    have hdone := horder.mem_of_start htask
    rw [hend, List.append_nil] at hdone
    obtain ⟨loaded, -, hm⟩ := hkept.bundled_of_taken hgraph hdone
    rw [hid] at hm
    exact Option.isSome_iff_exists.2 ⟨_, hm⟩
  · obtain ⟨task, -, hid, loaded, hload, rfl⟩ := hkept.exists_taken_of_bundled hend hgraph hm
    exact ⟨task, loaded, hid, hload, rfl⟩

/-- **Entries that were not asked for are there because some `import()` leads
to them.** -/
theorem exists_mayAskFor_of_load {warnings : List Compile.Warning}
    (h : load around = .ok (g, warnings)) {e : Entry} (he : e ∈ g.entries)
    (hlater : e.isUserDefined = false) : ∃ a, g.MayAskFor a e.id := by
  obtain ⟨named, done, l, -, horder, -, hgraph⟩ := order_of_load h
  rw [(Loading.graph_eq_ok hgraph).2.2] at he
  rcases List.mem_append.1 he with he | he
  · obtain ⟨p, -, rfl⟩ := List.mem_map.1 he
    cases hlater
  · obtain ⟨id, hid, rfl⟩ := List.mem_map.1 he
    obtain ⟨task, htask, loaded, hload, request, hrequest, r, hr, ⟨hkind, -, -⟩, rfl⟩ :=
      horder.kept.later id (List.mem_mergeSort.1 hid)
    obtain ⟨loaded', hload', hm⟩ := horder.kept.bundled_of_taken hgraph htask
    obtain rfl : loaded = loaded' := Except.ok.inj (hload.symm.trans hload')
    exact ⟨_, request.1, mem_requests_of_settled hm hrequest hr, by rw [hkind]; rfl⟩

/-- A program with one entry has one chunk. -/
theorem Program.chunkEntries {name : Option String} (h : Program around [(name, r)] g) :
    ChunkGraph.chunkEntries g true = [⟨r.id, name, true⟩] := by
  obtain ⟨later, hentries⟩ := h.entries
  rw [ChunkGraph.chunkEntries, hentries, List.filter_append]
  simp [entriesOf]

end DepBundle.Graph
