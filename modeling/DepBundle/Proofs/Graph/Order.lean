import DepBundle.Proofs.Graph.Loading
import DepBundle.Proofs.Graph.Task
/-!
# Graphs — the order in which modules are taken in

The tasks of a program run side by side, and each is taken in when it is
finished (`Loading.Step`), in any order (`Loading.Order`). Asking for a
module leaves what is there as it is (`Extends`) and gives out a task at
most once (`Given`), so at every point of every order it is known what each
slot holds and why (`Kept`).
-/

namespace DepBundle.Graph

variable {around : Surroundings} {start : List Resolved} {r : Resolved} {task : Task}
  {loaded : Loaded} {id : String}

/-- What a program asks for: its entries, and what is asked for by the
modules that it is made of. -/
inductive Asked (around : Surroundings) (start : List Resolved) : Resolved → Prop
  | entry {r : Resolved} (h : r ∈ start) : Asked around start r
  | request {importer r : Resolved} {loaded : Loaded}
    {request : Module.Record × Option Resolved} (hasked : Asked around start importer)
    (hpart : importer.isExternal = false)
    (hload : Task.load around { module := importer } = .ok loaded)
    (hrequest : request ∈ loaded.imports) (hr : r ∈ request.2) : Asked around start r

/-- Whatever task loads a module that is asked for, so is what that asks
for. -/
theorem Asked.of_load (hasked : Asked around start task.module)
    (hpart : task.module.isExternal = false) (hload : Task.load around task = .ok loaded)
    {request : Module.Record × Option Resolved} (hrequest : request ∈ loaded.imports)
    (hr : r ∈ request.2) : Asked around start r := by
  obtain ⟨loaded', hload', houtline⟩ :
      ∃ loaded', Task.load around { module := task.module } = .ok loaded' ∧
        loaded'.outline = loaded.outline := Task.exists_ok_of_load _ hload rfl
  have himports : loaded'.imports = loaded.imports := congrArg Prod.snd houtline
  exact .request hasked hpart hload' (himports ▸ hrequest) hr

/-- What a task may be given out for: a module that was asked for and is
part of the output. -/
structure Task.IsDue (around : Surroundings) (start : List Resolved) (task : Task) : Prop where
  asked : Asked around start task.module
  part : task.module.isExternal = false
  isEntry : task.isEntry = (start.map (·.id)).contains task.module.id

/-- A loaded module as the program has it. -/
def Loaded.settled (loaded : Loaded) : Bundled :=
  { loaded.module with
    imports := loaded.imports.map fun (record, target) => ⟨record, target.map (·.id)⟩ }

namespace Loading

variable {l l' l'' : Loading} {entries : List String} {done : List Task} {owner : Bundled}
  {request : Module.Record × Option Resolved}

/-- **Any task in flight may be the next to be taken in,** as long as one is
waited for. -/
inductive Step (around : Surroundings) (entries : List String) (l : Loading) (task : Task) :
    Loading → Prop
  | receive {before after : List Task} (hwaiting : l.remaining ≠ 0)
    (hflight : l.tasks = before ++ task :: after) :
    Step around entries l task
      (receive entries { l with tasks := before ++ after } (Task.load around task))

/-- The tasks taken in so far, in this order, have led here. -/
inductive Order (around : Surroundings) (start : List Resolved) : List Task → Loading → Prop
  | start : Order around start [] (ofEntries start)
  | step {done : List Task} {l l' : Loading} {task : Task} (h : Order around start done l)
    (hstep : Step around (start.map (·.id)) l task l') : Order around start (done ++ [task]) l'

/-! ## Asking -/

/-- What there is to do about a module that is asked for. -/
theorem ask_cases (l : Loading) (task : Task) :
    (l.slots.contains task.module.id ∧ l.ask task = l) ∨
    (l.slots.contains task.module.id = false ∧ task.module.isExternal ∧
      l.ask task = { l with slots := l.slots.insert task.module.id (some .external) }) ∨
    (l.slots.contains task.module.id = false ∧ task.module.isExternal = false ∧
      l.ask task =
        { l with
          slots := l.slots.insert task.module.id none
          tasks := l.tasks ++ [task]
          remaining := l.remaining + 1 }) := by
  rw [ask]
  split_ifs with hthere hexternal
  · exact Or.inl ⟨hthere, rfl⟩
  · exact Or.inr (Or.inl ⟨by simpa using hthere, hexternal, rfl⟩)
  · exact Or.inr (Or.inr ⟨by simpa using hthere, by simpa using hexternal, rfl⟩)

theorem contains_ask : (l.ask task).slots.contains id ↔
    l.slots.contains id ∨ id = task.module.id := by
  rcases ask_cases l task with ⟨hthere, heq⟩ | ⟨-, -, heq⟩ | ⟨-, -, heq⟩
  · rw [heq]
    constructor
    · exact Or.inl
    · rintro (h | rfl)
      · exact h
      · exact hthere
  all_goals rw [heq, OrderedMap.contains_insert, or_comm]

/-- Whether an `import()` makes what it leads to an entry of its own. -/
def IsLater (entries : List String) (record : Module.Record) (r : Resolved) : Prop :=
  record.kind = .dynamicImport ∧ r.isExternal = false ∧ r.id ∉ entries

theorem contains_follow (entries : List String) (owner : Bundled) (l : Loading)
    (request : Module.Record × Option Resolved) :
    (follow entries owner l request).slots.contains id ↔
      l.slots.contains id ∨ ∃ r ∈ request.2, r.id = id := by
  obtain ⟨record, _ | target⟩ := request
  · simp [follow]
  · have hslots : (follow entries owner l (record, some target)).slots =
        (l.ask { module := target, owner := some owner.key }).slots := by
      rw [follow]
      split <;> rfl
    rw [hslots, contains_ask, eq_comm (a := id)]
    simp

theorem dynamicTargets_ask (l : Loading) (task : Task) :
    (l.ask task).dynamicTargets = l.dynamicTargets := by
  rcases ask_cases l task with ⟨-, heq⟩ | ⟨-, -, heq⟩ | ⟨-, -, heq⟩
  all_goals rw [heq]

theorem mem_dynamicTargets_follow (entries : List String) (owner : Bundled) (l : Loading)
    (request : Module.Record × Option Resolved) :
    id ∈ (follow entries owner l request).dynamicTargets ↔
    id ∈ l.dynamicTargets ∨ ∃ r ∈ request.2, IsLater entries request.1 r ∧ r.id = id := by
  obtain ⟨record, _ | target⟩ := request
  · simp [follow]
  · rw [follow]
    split <;> rename_i hlater
    · have hlater' : IsLater entries record target := by
        simpa [IsLater, and_assoc] using hlater
      rw [OrderedSet.mem_insert, dynamicTargets_ask, or_comm, eq_comm]
      simp [hlater']
    · have hlater' : ¬ IsLater entries record target := by
        simpa [IsLater, and_assoc] using hlater
      rw [dynamicTargets_ask]
      simp [hlater']

/-- **What asking leaves as it is:** the slots there are, the tasks given
out, the count of those that are waited for, and what went wrong. -/
structure Extends (l l' : Loading) : Prop where
  slots : ∀ id, l.slots.contains id → l'.slots.get? id = l.slots.get? id
  tasks : ∃ more, l'.tasks = l.tasks ++ more ∧ l'.remaining = l.remaining + more.length
  failures : l'.failures = l.failures

theorem Extends.refl (l : Loading) : Extends l l :=
  ⟨fun _ _ => rfl, ⟨[], (List.append_nil _).symm, rfl⟩, rfl⟩

theorem Extends.contains (h : Extends l l') (hid : l.slots.contains id) : l'.slots.contains id := by
  rw [OrderedMap.contains, h.slots id hid]
  exact hid

theorem Extends.trans (h : Extends l l') (h' : Extends l' l'') : Extends l l'' := by
  obtain ⟨more, htasks, hremaining⟩ := h.tasks
  obtain ⟨more', htasks', hremaining'⟩ := h'.tasks
  refine ⟨fun id hid => ?_, ⟨more ++ more', ?_, ?_⟩, h'.failures.trans h.failures⟩
  · rw [h'.slots id (h.contains hid), h.slots id hid]
  · rw [htasks', htasks, List.append_assoc]
  · rw [hremaining', hremaining, List.length_append, Nat.add_assoc]

theorem get?_insert_of_contains (slot : Option Vertex) (hnew : l.slots.contains id = false) :
    ∀ other, l.slots.contains other → (l.slots.insert id slot).get? other = l.slots.get? other := by
  intro other hother
  rw [OrderedMap.get?_insert, if_neg]
  rintro rfl
  rw [hnew] at hother
  cases hother

theorem extends_ask (l : Loading) (task : Task) : Extends l (l.ask task) := by
  rcases ask_cases l task with ⟨-, heq⟩ | ⟨hnew, -, heq⟩ | ⟨hnew, -, heq⟩
  · rw [heq]
    exact .refl l
  · rw [heq]
    exact ⟨get?_insert_of_contains _ hnew, ⟨[], (List.append_nil _).symm, rfl⟩, rfl⟩
  · rw [heq]
    exact ⟨get?_insert_of_contains _ hnew, ⟨[task], rfl, rfl⟩, rfl⟩

theorem extends_follow (entries : List String) (owner : Bundled) (l : Loading)
    (request : Module.Record × Option Resolved) : Extends l (follow entries owner l request) := by
  obtain ⟨record, _ | target⟩ := request
  · exact .refl l
  · rw [follow]
    have hask := extends_ask l { module := target, owner := some owner.key }
    split
    · exact ⟨hask.slots, hask.tasks, hask.failures⟩
    · exact hask

theorem extends_foldl {α : Type} {f : Loading → α → Loading} (h : ∀ l a, Extends l (f l a))
    (as : List α) (l : Loading) : Extends l (as.foldl f l) := by
  induction as generalizing l with
  | nil => exact .refl l
  | cons a as ih => exact (h l a).trans (ih _)

/-! ## What tasks are given out -/

/-- **The tasks given out:** each for another module that is part of the
output and was asked for, and one for each such module come upon. -/
structure Given (around : Surroundings) (start : List Resolved) (done : List Task) (l : Loading) :
    Prop where
  once : ((done ++ l.tasks).map (·.module.id)).Nodup
  due : ∀ task ∈ done ++ l.tasks, task.IsDue around start
  contains : ∀ task ∈ done ++ l.tasks, l.slots.contains task.module.id
  waiting : ∀ task ∈ l.tasks, l.slots.get? task.module.id = some none
  slots : ∀ id, l.slots.contains id → (∃ task ∈ done ++ l.tasks, task.module.id = id) ∨
    l.slots.get? id = some (some .external) ∧
      ∃ r, Asked around start r ∧ r.isExternal ∧ r.id = id

/-- A module left to the host has its slot, and there is no task for it. -/
theorem Given.leave (h : Given around start done l) (hnew : l.slots.contains r.id = false)
    (hasked : Asked around start r) (hexternal : r.isExternal) :
    Given around start done { l with slots := l.slots.insert r.id (some .external) } := by
  have hkeep := get?_insert_of_contains (some .external) hnew
  refine ⟨h.once, h.due, fun t ht => ?_, fun t ht => ?_, fun other hother => ?_⟩
  · exact OrderedMap.contains_insert.2 (Or.inr (h.contains t ht))
  · exact (hkeep _ (h.contains t (List.mem_append_right _ ht))).trans (h.waiting t ht)
  · rcases OrderedMap.contains_insert.1 hother with rfl | hother
    · refine Or.inr ⟨?_, r, hasked, hexternal, rfl⟩
      rw [OrderedMap.get?_insert, if_pos rfl]
    · rw [hkeep other hother]
      exact h.slots other hother

/-- A task is given out for a module that has no slot. -/
theorem Given.give (h : Given around start done l)
    (hnew : l.slots.contains task.module.id = false) (hdue : task.IsDue around start) :
    Given around start done
      { l with
        slots := l.slots.insert task.module.id none
        tasks := l.tasks ++ [task]
        remaining := l.remaining + 1 } := by
  have hkeep := get?_insert_of_contains none hnew
  have hall : ∀ {t}, t ∈ done ++ (l.tasks ++ [task]) ↔ t ∈ done ++ l.tasks ∨ t = task := by
    simp [or_assoc]
  refine ⟨?_, fun t ht => ?_, fun t ht => ?_, fun t ht => ?_, fun other hother => ?_⟩
  · -- a task for the same module would have given it a slot
    rw [← List.append_assoc, List.map_append, List.nodup_append]
    refine ⟨h.once, List.nodup_singleton _, fun a ha b hb hsame => ?_⟩
    obtain ⟨t, ht, rfl⟩ := List.mem_map.1 ha
    obtain rfl := List.mem_singleton.1 hb
    have hthere := h.contains t ht
    rw [hsame, hnew] at hthere
    cases hthere
  · rcases hall.1 ht with ht | rfl
    · exact h.due t ht
    · exact hdue
  · rcases hall.1 ht with ht | rfl
    · exact OrderedMap.contains_insert.2 (Or.inr (h.contains t ht))
    · exact OrderedMap.contains_insert.2 (Or.inl rfl)
  · rcases List.mem_append.1 ht with ht | ht
    · exact (hkeep _ (h.contains t (List.mem_append_right _ ht))).trans (h.waiting t ht)
    · rw [List.mem_singleton.1 ht, OrderedMap.get?_insert, if_pos rfl]
  · rcases OrderedMap.contains_insert.1 hother with rfl | hother
    · exact Or.inl ⟨task, hall.2 (Or.inr rfl), rfl⟩
    · rw [hkeep other hother]
      refine (h.slots other hother).imp_left ?_
      rintro ⟨t, ht, hid⟩
      exact ⟨t, hall.2 (Or.inl ht), hid⟩

/-- **Asking gives out one more task at most.** -/
theorem Given.ask (h : Given around start done l) (hasked : Asked around start task.module)
    (hentry : l.slots.contains task.module.id = false →
      task.isEntry = (start.map (·.id)).contains task.module.id) :
    Given around start done (l.ask task) := by
  rcases ask_cases l task with ⟨-, heq⟩ | ⟨hnew, hexternal, heq⟩ | ⟨hnew, hpart, heq⟩
  all_goals rw [heq]
  · exact h
  · exact h.leave hnew hasked hexternal
  · exact h.give hnew ⟨hasked, hpart, hentry hnew⟩

/-- Following a request is asking, as far as tasks go. -/
theorem Given.follow (h : Given around start done l)
    (hstart : ∀ r ∈ start, l.slots.contains r.id)
    (hasked : ∀ r ∈ request.2, Asked around start r) :
    Given around start done (follow entries owner l request) := by
  obtain ⟨record, _ | target⟩ := request
  · exact h
  · have hask : Given around start done (l.ask { module := target, owner := some owner.key }) := by
      refine h.ask (hasked target rfl) fun hnew => ?_
      -- an entry has its slot already
      rw [eq_comm, Bool.eq_false_iff, Ne, List.contains_iff_mem, List.mem_map]
      rintro ⟨r, hr, hid⟩
      have hthere := hstart r hr
      rw [hid, hnew] at hthere
      cases hthere
    rw [Loading.follow]
    split
    · exact ⟨hask.once, hask.due, hask.contains, hask.waiting, hask.slots⟩
    · exact hask

theorem Given.foldl_follow {imports : List (Module.Record × Option Resolved)}
    (h : Given around start done l) (hstart : ∀ r ∈ start, l.slots.contains r.id)
    (hasked : ∀ request ∈ imports, ∀ r ∈ request.2, Asked around start r) :
    Given around start done (imports.foldl (Loading.follow (start.map (·.id)) owner) l) := by
  induction imports generalizing l with
  | nil => exact h
  | cons request imports ih =>
    refine ih (h.follow hstart (hasked request (List.mem_cons_self ..))) (fun r hr => ?_)
      fun other hother => hasked other (List.mem_cons_of_mem _ hother)
    exact (extends_follow _ owner l request).contains (hstart r hr)

/-! ## What is known at every point -/

/-- What was made of a task that was taken in. -/
structure Taken (around : Surroundings) (entries : List String) (l : Loading) (task : Task) :
    Prop where
  failed : ∀ failures, Task.load around task = .error failures →
    l.slots.get? task.module.id = some none ∧ ∀ f ∈ failures, f ∈ l.failures
  loaded : ∀ loaded, Task.load around task = .ok loaded →
    l.slots.get? task.module.id = some (some (.bundled loaded.settled)) ∧
    ∀ request ∈ loaded.imports, ∀ r ∈ request.2, l.slots.contains r.id ∧
      (IsLater entries request.1 r → r.id ∈ l.dynamicTargets)

/-- **What is known of a loading at every point of every order.** -/
structure Kept (around : Surroundings) (start : List Resolved) (done : List Task) (l : Loading) :
    Prop extends Given around start done l where
  remaining : l.remaining = l.tasks.length
  entries : ∀ r ∈ start, l.slots.contains r.id
  taken : ∀ task ∈ done, Taken around (start.map (·.id)) l task
  failures : ∀ f ∈ l.failures, ∃ task ∈ done, ∃ failures,
    Task.load around task = .error failures ∧ f ∈ failures
  later : ∀ id ∈ l.dynamicTargets, ∃ task ∈ done, ∃ loaded, Task.load around task = .ok loaded ∧
    ∃ request ∈ loaded.imports, ∃ r ∈ request.2,
      IsLater (start.map (·.id)) request.1 r ∧ r.id = id

theorem contains_ofEntries : (ofEntries start).slots.contains id ↔ ∃ r ∈ start, r.id = id := by
  have hask : ∀ (l : Loading) (r : Resolved),
      (l.ask { module := r, isEntry := true }).slots.contains id ↔
        l.slots.contains id ∨ r.id = id := by
    intro l r
    rw [contains_ask, eq_comm (a := id)]
  exact (foldl_iff (P := fun l : Loading => l.slots.contains id) hask start {}).trans
    (or_iff_right (by simp [OrderedMap.contains]))

theorem kept_ofEntries (around : Surroundings) (start : List Resolved) :
    Kept around start [] (ofEntries start) := by
  have hextends : Extends {} (ofEntries start) := extends_foldl (fun l _ => extends_ask l _) _ _
  have hlater : (ofEntries start).dynamicTargets = .empty :=
    foldl_eq (p := dynamicTargets) (fun l _ => dynamicTargets_ask l _) start {}
  have hgiven : Given around start [] (ofEntries start) := by
    refine List.foldlRecOn start _ ⟨by simp, by simp, by simp, by simp, fun id hid => ?_⟩ ?_
    · cases hid
    · exact fun l hl r hr => hl.ask (.entry hr) fun _ =>
        (List.contains_iff_mem.2 (List.mem_map_of_mem hr)).symm
  refine ⟨hgiven, ?_, fun r hr => contains_ofEntries.2 ⟨r, hr, rfl⟩, by simp, ?_, ?_⟩
  · obtain ⟨tasks, htasks, hremaining⟩ := hextends.tasks
    rw [htasks, hremaining, List.length_append]
    rfl
  · rw [hextends.failures]
    simp
  · rw [hlater]
    exact fun id hid => absurd hid List.not_mem_nil

/-- A task is taken in, and the others are still in flight. -/
theorem Given.take (h : Given around start done l) {before after : List Task}
    (hflight : l.tasks = before ++ task :: after) :
    Given around start (done ++ [task]) { l with tasks := before ++ after } := by
  have hperm : (done ++ [task] ++ (before ++ after)).Perm (done ++ l.tasks) := by
    rw [hflight, List.append_assoc, List.singleton_append]
    exact List.perm_middle.symm.append_left done
  refine ⟨(hperm.map _).nodup_iff.2 h.once, fun t ht => h.due t (hperm.subset ht),
    fun t ht => h.contains t (hperm.subset ht), fun t ht => h.waiting t ?_, fun id hid => ?_⟩
  · rw [hflight]
    exact List.perm_middle.symm.subset (List.mem_cons_of_mem _ ht)
  · refine (h.slots id hid).imp_left ?_
    rintro ⟨t, ht, hid⟩
    exact ⟨t, hperm.symm.subset ht, hid⟩

/-! ## Taking in -/

/-- What the module of a finished task asks for is asked for. -/
def followed (entries : List String) (l : Loading) (loaded : Loaded) : Loading :=
  loaded.imports.foldl (follow entries loaded.module)
    { l with warnings := l.warnings ++ loaded.warnings }

theorem receive_ok : receive entries l (.ok loaded) =
    { followed entries l loaded with
      slots := (followed entries l loaded).slots.insert loaded.module.id
        (some (.bundled loaded.settled))
      remaining := (followed entries l loaded).remaining - 1 } := rfl

/-- **What that does:** there are slots for what is asked for, and what may
be loaded later is kept in mind. -/
structure Follows (entries : List String) (loaded : Loaded) (l l' : Loading) : Prop
    extends Extends l l' where
  contains_iff : ∀ id, l'.slots.contains id ↔
    l.slots.contains id ∨ ∃ request ∈ loaded.imports, ∃ r ∈ request.2, r.id = id
  later_iff : ∀ id, id ∈ l'.dynamicTargets ↔ id ∈ l.dynamicTargets ∨
    ∃ request ∈ loaded.imports, ∃ r ∈ request.2, IsLater entries request.1 r ∧ r.id = id

theorem follows_followed (entries : List String) (loaded : Loaded) (l : Loading) :
    Follows entries loaded l (followed entries l loaded) := by
  have hextends := extends_foldl (extends_follow entries loaded.module) loaded.imports
    { l with warnings := l.warnings ++ loaded.warnings }
  exact
    { slots := hextends.slots
      tasks := hextends.tasks
      failures := hextends.failures
      contains_iff := fun id => foldl_iff (P := fun l : Loading => l.slots.contains id)
        (contains_follow entries loaded.module) loaded.imports _
      later_iff := fun id => foldl_iff (P := fun l : Loading => id ∈ l.dynamicTargets)
        (mem_dynamicTargets_follow entries loaded.module) loaded.imports _ }

/-- What was made of a task stays as it is. -/
theorem Taken.mono (h : Taken around entries l task)
    (hslot : l'.slots.get? task.module.id = l.slots.get? task.module.id)
    (hcontains : ∀ id, l.slots.contains id → l'.slots.contains id)
    (hfailures : ∀ f ∈ l.failures, f ∈ l'.failures)
    (hlater : ∀ id ∈ l.dynamicTargets, id ∈ l'.dynamicTargets) : Taken around entries l' task where
  failed failures hload := by
    obtain ⟨hget, hall⟩ := h.failed failures hload
    exact ⟨hslot.trans hget, fun f hf => hfailures f (hall f hf)⟩
  loaded loaded hload := by
    obtain ⟨hget, hall⟩ := h.loaded loaded hload
    refine ⟨hslot.trans hget, fun request hrequest r hr => ?_⟩
    obtain ⟨hthere, hdynamic⟩ := hall request hrequest r hr
    exact ⟨hcontains r.id hthere, fun h => hlater r.id (hdynamic h)⟩

/-- The modules of the tasks that are taken in are different ones. -/
theorem Given.ne_of_mem (h : Given around start (done ++ [task]) l) {t : Task} (ht : t ∈ done) :
    t.module.id ≠ task.module.id := by
  have hnodup := h.once
  rw [List.map_append, List.map_append] at hnodup
  exact (List.nodup_append.1 (List.nodup_append.1 hnodup).1).2.2 _ (List.mem_map_of_mem ht) _
    (List.mem_singleton_self _)

/-- A task that has come to failures is taken in. -/
theorem Kept.step_error (h : Kept around start done l) {before after : List Task}
    (hflight : l.tasks = before ++ task :: after) {failures : List Compile.Failure}
    (hload : Task.load around task = .error failures) :
    Kept around start (done ++ [task])
      (receive (start.map (·.id)) { l with tasks := before ++ after } (.error failures)) := by
  have hgiven := h.take hflight
  have hmem : task ∈ l.tasks := by
    rw [hflight]
    exact List.mem_append_right _ (List.mem_cons_self ..)
  refine ⟨⟨hgiven.once, hgiven.due, hgiven.contains, hgiven.waiting, hgiven.slots⟩, ?_, h.entries,
    ?_, ?_, ?_⟩
  · have hremaining := h.remaining
    rw [hflight] at hremaining
    simp only [receive, hremaining, List.length_append, List.length_cons]
    omega
  · rw [List.forall_mem_append, List.forall_mem_singleton]
    refine ⟨fun t ht => (h.taken t ht).mono rfl (fun _ h => h)
      (fun f hf => List.mem_append_left _ hf) fun _ h => h, fun failures' hload' => ?_,
      fun loaded hload' => ?_⟩
    · -- its own failures have been added to the others
      obtain rfl : failures = failures' := Except.error.inj (hload.symm.trans hload')
      exact ⟨h.waiting task hmem, fun f hf => List.mem_append_right _ hf⟩
    · cases hload.symm.trans hload'
  · intro f hf
    rcases List.mem_append.1 hf with hf | hf
    · obtain ⟨t, ht, own, hown, hfown⟩ := h.failures f hf
      exact ⟨t, List.mem_append_left _ ht, own, hown, hfown⟩
    · exact ⟨task, List.mem_append_right _ (List.mem_singleton_self _), failures, hload, hf⟩
  · intro id hid
    obtain ⟨t, ht, hwhy⟩ := h.later id hid
    exact ⟨t, List.mem_append_left _ ht, hwhy⟩

/-- The slot of a task that was taken in may be filled. -/
theorem Given.fill (h : Given around start (done ++ [task]) l) (v : Vertex) (n : ℕ) :
    Given around start (done ++ [task])
      { l with slots := l.slots.insert task.module.id (some v), remaining := n } := by
  refine ⟨h.once, h.due, fun t ht => ?_, fun t ht => ?_, fun other hother => ?_⟩
  · exact OrderedMap.contains_insert.2 (Or.inr (h.contains t ht))
  · rw [OrderedMap.get?_insert, if_neg]
    · exact h.waiting t ht
    · have hnodup := h.once
      rw [List.map_append, List.nodup_append] at hnodup
      refine fun hsame => hnodup.2.2 _ (List.mem_map_of_mem ?_) _ (List.mem_map_of_mem ht)
        hsame.symm
      exact List.mem_append_right _ (List.mem_singleton_self _)
  · by_cases hsame : other = task.module.id
    · exact Or.inl ⟨task, by simp, hsame.symm⟩
    · rw [OrderedMap.get?_insert, if_neg hsame]
      exact h.slots other ((OrderedMap.contains_insert.1 hother).resolve_left hsame)

/-- A task that has come to a module is taken in. -/
theorem Kept.step_ok (h : Kept around start done l) {before after : List Task}
    (hflight : l.tasks = before ++ task :: after) (hload : Task.load around task = .ok loaded) :
    Kept around start (done ++ [task])
      (receive (start.map (·.id)) { l with tasks := before ++ after } (.ok loaded)) := by
  have hid : loaded.module.id = task.module.id := (Task.loads_load hload).id
  have hdue : task.IsDue around start := by
    refine h.due task (List.mem_append_right _ ?_)
    rw [hflight]
    exact List.mem_append_right _ (List.mem_cons_self ..)
  have htake := h.take hflight
  have hfollows := follows_followed (start.map (·.id)) loaded { l with tasks := before ++ after }
  have hgiven : Given around start (done ++ [task])
      (followed (start.map (·.id)) { l with tasks := before ++ after } loaded) :=
    Given.foldl_follow
      ⟨htake.once, htake.due, htake.contains, htake.waiting, htake.slots⟩ h.entries
      fun request hrequest r hr => hdue.asked.of_load hdue.part hload hrequest hr
  rw [receive_ok, hid]
  -- only the slot of this task changes after what it asks for is asked for
  generalize followed (start.map (·.id)) { l with tasks := before ++ after } loaded = l₂ at *
  have hthere : ∀ {other v}, l₂.slots.contains other →
      (l₂.slots.insert task.module.id v).contains other :=
    fun hother => OrderedMap.contains_insert.2 (Or.inr hother)
  refine ⟨hgiven.fill _ _, ?_, fun r hr => hthere (hfollows.contains (h.entries r hr)), ?_,
    fun f hf => ?_, fun other hother => ?_⟩
  · obtain ⟨more, htasks, hcount⟩ := hfollows.tasks
    have hremaining := h.remaining
    rw [hflight] at hremaining
    simp only [htasks, hcount, hremaining, List.length_append, List.length_cons]
    omega
  · rw [List.forall_mem_append, List.forall_mem_singleton]
    refine ⟨fun t ht => (h.taken t ht).mono ?_ (fun _ hother => hthere (hfollows.contains hother))
      (fun f hf => hfollows.failures.symm ▸ hf)
      fun other hother => (hfollows.later_iff other).2 (Or.inl hother), fun failures hfail => ?_,
      fun loaded' hload' => ?_⟩
    · rw [OrderedMap.get?_insert, if_neg (hgiven.ne_of_mem ht)]
      exact hfollows.slots _ (h.contains t (List.mem_append_left _ ht))
    · cases hload.symm.trans hfail
    · obtain rfl : loaded = loaded' := Except.ok.inj (hload.symm.trans hload')
      refine ⟨?_, fun request hrequest r hr => ⟨hthere ?_, fun hlate => ?_⟩⟩
      · rw [OrderedMap.get?_insert, if_pos rfl]
      · exact (hfollows.contains_iff _).2 (Or.inr ⟨request, hrequest, r, hr, rfl⟩)
      · exact (hfollows.later_iff r.id).2 (Or.inr ⟨request, hrequest, r, hr, hlate, rfl⟩)
  · obtain ⟨t, ht, hwhy⟩ := h.failures f (hfollows.failures ▸ hf)
    exact ⟨t, List.mem_append_left _ ht, hwhy⟩
  · rcases (hfollows.later_iff other).1 hother with hother | ⟨request, hrequest, r, hr, hlate⟩
    · obtain ⟨t, ht, hwhy⟩ := h.later other hother
      exact ⟨t, List.mem_append_left _ ht, hwhy⟩
    · exact ⟨task, List.mem_append_right _ (List.mem_singleton_self _), loaded, hload, request,
        hrequest, r, hr, hlate⟩

/-- **Taking in a task keeps what is known.** -/
theorem Kept.step (h : Kept around start done l)
    (hstep : Step around (start.map (·.id)) l task l') : Kept around start (done ++ [task]) l' := by
  obtain ⟨-, hflight⟩ := hstep
  cases hload : Task.load around task with
  | error failures => exact h.step_error hflight hload
  | ok loaded => exact h.step_ok hflight hload

/-- **What is known holds at every point of every order.** -/
theorem Order.kept (h : Order around start done l) : Kept around start done l := by
  induction h with
  | start => exact kept_ofEntries around start
  | step _ hstep ih => exact ih.step hstep

end Loading

end DepBundle.Graph
