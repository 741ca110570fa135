import DepBundle.Graph.Loading
import DepBundle.Proofs.Graph.Exports
/-!
# Graphs — what loading promises

Loading keeps two promises at every step (`Loading.Sound`): a module stands
under its id with the key that belongs to it, and what it asks for has been
come upon. Asking only adds modules that are yet to be loaded or left to
the host (`Loading.Grows`), so a program that is loaded keeps both
(`load_keyed`, `load_closed`).
-/

namespace DepBundle.Graph

variable {around : Surroundings} {entries : List String} {l l' l'' : Loading} {task : Task}
  {loaded : Loaded} {id : String} {m : Bundled} {owner : Bundled}

/-- A module is loaded with the key of its id. -/
def Loaded.IsKeyed (around : Surroundings) (loaded : Loaded) : Prop :=
  loaded.module.key = Task.keyOf around loaded.module.id

theorem Task.isKeyed_script {type : Module.FileType} {source : String}
    (h : task.script around type source = .ok loaded) : loaded.IsKeyed around := by
  simp only [script, bind, Except.bind] at h
  repeat' split at h
  all_goals cases h
  rfl

theorem Task.isKeyed_load (h : Task.load around task = .ok loaded) : loaded.IsKeyed around := by
  have hwhole : ∀ {type body}, Except.ok (task.whole around type body) =
      (Except.ok loaded : Except (List Compile.Failure) Loaded) → loaded.IsKeyed around := by
    rintro type body hload
    obtain rfl := Except.ok.inj hload
    rfl
  rw [load] at h
  generalize around.settings.virtualModules.get? task.module.id = served at h
  generalize Module.FileType.ofPath task.path = type at h
  generalize around.files.readBytes? task.path = bytes at h
  generalize around.files.readText? task.path = text at h
  cases served with
  | some source => exact isKeyed_script h
  | none =>
    cases type with
    | asset =>
      cases bytes with
      | some content => exact hwhole h
      | none => cases h
    | json =>
      cases text with
      | none => cases h
      | some source =>
        simp only [if_true] at h
        split at h
        · exact hwhole h
        · cases h
    | _ =>
      cases text with
      | none => cases h
      | some source => exact isKeyed_script h

namespace Loading

/-- **What asking does to the modules come upon:** those there are stay,
and none becomes part of the output. -/
structure Grows (l l' : Loading) : Prop where
  contains : ∀ id, l.slots.contains id → l'.slots.contains id
  bundled : ∀ id m, l'.slots.get? id = some (some (.bundled m)) →
    l.slots.get? id = some (some (.bundled m))

theorem Grows.refl (l : Loading) : Grows l l := ⟨fun _ h => h, fun _ _ h => h⟩

theorem Grows.trans (h : Grows l l') (h' : Grows l' l'') : Grows l l'' :=
  ⟨fun id hid => h'.contains id (h.contains id hid), fun id m hm => h.bundled id m (h'.bundled id m hm)⟩

/-- A slot that was not there and holds no part of the output. -/
theorem grows_insert {slot : Option Vertex}
    (hslots : l'.slots = l.slots.insert id slot) (hslot : ∀ m, slot ≠ some (.bundled m)) :
    Grows l l' := by
  refine ⟨fun other hother => ?_, fun other m hm => ?_⟩
  · rw [hslots, OrderedMap.contains_insert]
    exact Or.inr hother
  · rw [hslots, OrderedMap.get?_insert] at hm
    split at hm
    · exact absurd (Option.some.inj hm) (hslot m)
    · exact hm

theorem grows_ask (l : Loading) (task : Task) :
    Grows l (l.ask task) ∧ (l.ask task).slots.contains task.module.id := by
  rw [ask]
  split_ifs with hthere hexternal
  · exact ⟨Grows.refl l, hthere⟩
  · exact ⟨grows_insert rfl (by simp), OrderedMap.contains_insert.2 (Or.inl rfl)⟩
  · exact ⟨grows_insert rfl (by simp), OrderedMap.contains_insert.2 (Or.inl rfl)⟩

theorem grows_follow (entries : List String) (owner : Bundled) (l : Loading)
    (request : Module.Record × Option Resolved) :
    Grows l (follow entries owner l request) ∧
      ∀ target ∈ request.2, (follow entries owner l request).slots.contains target.id := by
  obtain ⟨record, _ | target⟩ := request
  · exact ⟨Grows.refl l, by simp⟩
  · have hask := grows_ask l { module := target, owner := some owner.key }
    have hslots : (follow entries owner l (record, some target)).slots =
        (l.ask { module := target, owner := some owner.key }).slots := by
      rw [follow]
      split <;> rfl
    refine ⟨⟨fun id hid => ?_, fun id m hm => hask.1.bundled id m (hslots ▸ hm)⟩, ?_⟩
    · rw [hslots]
      exact hask.1.contains id hid
    · rintro _ ⟨⟩
      rw [hslots]
      exact hask.2

theorem grows_foldl_follow (entries : List String) (owner : Bundled)
    (imports : List (Module.Record × Option Resolved)) (l : Loading) :
    Grows l (imports.foldl (follow entries owner) l) ∧ ∀ request ∈ imports,
      ∀ target ∈ request.2, (imports.foldl (follow entries owner) l).slots.contains target.id := by
  induction imports generalizing l with
  | nil => exact ⟨Grows.refl l, by simp⟩
  | cons request imports ih =>
    obtain ⟨hgrows, hasked⟩ := grows_follow entries owner l request
    obtain ⟨hmore, hall⟩ := ih (follow entries owner l request)
    refine ⟨hgrows.trans hmore, fun other hother target htarget => ?_⟩
    rcases List.mem_cons.1 hother with rfl | hother
    · exact hmore.contains _ (hasked target htarget)
    · exact hall other hother target htarget

/-! ## Carrying out the tasks -/

/-- **What loading promises of the modules that are loaded.** -/
structure Sound (around : Surroundings) (l : Loading) : Prop where
  keyed : ∀ id m, l.slots.get? id = some (some (.bundled m)) →
    m.id = id ∧ m.key = Task.keyOf around id
  closed : ∀ id m, l.slots.get? id = some (some (.bundled m)) →
    ∀ i ∈ m.imports, ∀ target ∈ i.target, l.slots.contains target

theorem Sound.grows (h : Sound around l) (hgrows : Grows l l') : Sound around l' where
  keyed id m hm := h.keyed id m (hgrows.bundled id m hm)
  closed id m hm i hi target htarget :=
    hgrows.contains target (h.closed id m (hgrows.bundled id m hm) i hi target htarget)

/-- **Taking in a module keeps the promises.** -/
theorem Sound.receive (h : Sound around l) {result : Except (List Compile.Failure) Loaded}
    (hkeyed : ∀ loaded, result = .ok loaded → loaded.IsKeyed around) :
    Sound around (receive entries l result) := by
  cases result with
  | error failures => exact ⟨h.keyed, h.closed⟩
  | ok loaded =>
    have hstart : Sound around { l with warnings := l.warnings ++ loaded.warnings } :=
      ⟨h.keyed, h.closed⟩
    obtain ⟨hgrows, hasked⟩ := grows_foldl_follow entries loaded.module loaded.imports
      { l with warnings := l.warnings ++ loaded.warnings }
    have hfollowed := hstart.grows hgrows
    -- the module itself is written last, over what following its requests left
    refine ⟨fun id m hm => ?_, fun id m hm i hi target htarget => ?_⟩
    · rw [Loading.receive, OrderedMap.get?_insert] at hm
      split at hm
      · rename_i hid
        obtain rfl := Vertex.bundled.inj (Option.some.inj (Option.some.inj hm))
        exact ⟨hid.symm, hid ▸ hkeyed loaded rfl⟩
      · exact hfollowed.keyed id m hm
    · rw [Loading.receive, OrderedMap.contains_insert]
      right
      rw [Loading.receive, OrderedMap.get?_insert] at hm
      split at hm
      · obtain rfl := Vertex.bundled.inj (Option.some.inj (Option.some.inj hm))
        obtain ⟨request, hrequest, rfl⟩ := List.mem_map.1 hi
        obtain ⟨resolved, hresolved, rfl⟩ := Option.map_eq_some_iff.1 htarget
        exact hasked request hrequest resolved hresolved
      · exact hfollowed.closed id m hm i hi target htarget

/-- **Loading keeps its promises** however many tasks it carries out. -/
theorem Sound.run (h : Sound around l) (n : ℕ) :
    Sound around (run (Task.load around) entries n l) := by
  induction n generalizing l with
  | zero => exact h
  | succ n ih =>
    rw [Loading.run]
    split_ifs
    · exact h
    · split
      · exact h
      · rename_i task tasks _
        have hrest : Sound around { l with tasks } := ⟨h.keyed, h.closed⟩
        exact ih (hrest.receive fun loaded hloaded => Task.isKeyed_load hloaded)

/-! ## The program -/

/-- Modules are found in the program as they were loaded. -/
theorem get?_of_foldlM {es : List (String × Option Vertex)} {found vertices : OrderedMap String Vertex}
    (hnodup : (es.map Prod.fst).Nodup)
    (h : es.foldlM (fun (vertices : OrderedMap String Vertex) slot =>
      match slot with
      | (id, some vertex) => Except.ok (vertices.insert id vertex)
      | (id, none) => .error [Compile.Failure.neverLoaded id]) found = .ok vertices) :
    (vertices.get? id).map some =
      (OrderedMap.lookup id es).or ((found.get? id).map some) := by
  induction es generalizing found with
  | nil =>
    obtain rfl := Except.ok.inj h
    rfl
  | cons slot es ih =>
    obtain ⟨other, _ | vertex⟩ := slot
    · cases h
    · obtain ⟨hother, hes⟩ := List.nodup_cons.1 hnodup
      rw [ih hes h, OrderedMap.get?_insert, OrderedMap.lookup]
      by_cases hid : id = other
      · -- no id has two slots, so nothing later replaces this one
        have hnone : OrderedMap.lookup id es = none := by
          cases hlookup : OrderedMap.lookup id es with
          | none => rfl
          | some slot =>
            let map : OrderedMap String (Option Vertex) := ⟨es, hes⟩
            have hmem : id ∈ map.keys := OrderedMap.mem_keys_of_get? hlookup
            exact absurd (hid ▸ hmem) hother
        rw [hnone, if_pos hid, if_pos hid.symm]
        rfl
      · rw [if_neg hid, if_neg (Ne.symm hid)]

theorem get?_of_vertices? {vertices : OrderedMap String Vertex} (h : l.vertices? = .ok vertices)
    (id : String) : l.slots.get? id = (vertices.get? id).map some := by
  have hget : _ = (OrderedMap.lookup id l.slots.entries).or _ := get?_of_foldlM l.slots.nodup h
  rw [hget, OrderedMap.get?_empty, Option.map_none, Option.or_none]
  rfl

theorem get?_of_graph {start : List Entry} {g : Graph} (h : l.graph start = .ok g)
    (id : String) : l.slots.get? id = (g.vertices.get? id).map some := by
  simp only [graph, bind, Except.bind] at h
  split at h
  · cases h
  · split at h
    · cases h
    · rename_i hvertices
      cases h
      exact get?_of_vertices? hvertices id

end Loading

/-! ## What a loaded program is like -/

open Loading

variable {g : Graph} {warnings : List Compile.Warning}

/-- **A program that is loaded** is the graph of what tasks first come, first
served, have come to. -/
theorem exists_run_of_load (h : load around = .ok (g, warnings)) :
    ∃ named, resolveEntries around = .ok named ∧
      (run (Task.load around) ((named.map (·.2)).map (·.id)) (taskLimit around)
        (ofEntries (named.map (·.2)))).graph
          (named.map fun (name, module) => ⟨module.id, name, true⟩) = .ok g := by
  simp only [load, bind, Except.bind] at h
  split at h
  · cases h
  · split at h
    · cases h
    · rename_i named hnamed
      split at h
      · cases h
      · rename_i hgraph
        cases h
        exact ⟨named, hnamed, hgraph⟩

/-- A program is what was come upon, and what was promised of that. -/
theorem exists_sound_of_load (h : load around = .ok (g, warnings)) :
    ∃ l, Sound around l ∧ ∀ id, l.slots.get? id = (g.vertices.get? id).map some := by
  have hempty : Sound around {} := by
    constructor
    all_goals
      intro id m hm
      cases hm
  have hasked : ∀ (start : List Resolved) (l : Loading), Sound around l →
      Sound around (start.foldl (fun l module => l.ask { module, isEntry := true }) l) := by
    intro start
    induction start with
    | nil => exact fun _ hl => hl
    | cons module start ih => exact fun l hl => ih _ (hl.grows (grows_ask l _).1)
  obtain ⟨named, -, hgraph⟩ := exists_run_of_load h
  exact ⟨_, (hasked _ {} hempty).run _, get?_of_graph hgraph⟩

theorem get?_of_bundled (hget : ∀ id, l.slots.get? id = (g.vertices.get? id).map some)
    (hm : g.bundled? id = some m) : l.slots.get? id = some (some (.bundled m)) := by
  obtain ⟨v, hv, hvm⟩ := Option.bind_eq_some_iff.1 hm
  cases v with
  | external => cases hvm
  | bundled m' =>
    obtain rfl := Option.some.inj hvm
    rw [hget, hv, Option.map_some]

/-- **Modules stand under their ids and go by their keys.** -/
theorem load_keyed (h : load around = .ok (g, warnings)) (hm : g.bundled? id = some m) :
    m.id = id ∧ m.key = Task.keyOf around id := by
  obtain ⟨l, hsound, hget⟩ := exists_sound_of_load h
  exact hsound.keyed id m (get?_of_bundled hget hm)

theorem keyed_of_load (h : load around = .ok (g, warnings)) : g.Keyed :=
  fun _ _ hm => (load_keyed h hm).1

/-- **What is asked for is part of the program.** -/
theorem load_closed (h : load around = .ok (g, warnings)) :
    ∀ request ∈ g.requests id, g.vertices.contains request.2 := by
  obtain ⟨l, hsound, hget⟩ := exists_sound_of_load h
  rintro ⟨record, target⟩ hrequest
  obtain ⟨m, hm⟩ := Option.isSome_iff_exists.1 (bundled_of_mem_requests hrequest)
  rw [requests, hm] at hrequest
  obtain ⟨i, hi, hmap⟩ := List.mem_filterMap.1 hrequest
  obtain ⟨_, htarget, heq⟩ := Option.map_eq_some_iff.1 hmap
  obtain ⟨rfl, rfl⟩ := Prod.mk.inj heq
  have hcontains := hsound.closed id m (get?_of_bundled hget hm) i hi _ htarget
  rwa [OrderedMap.contains, hget, Option.isSome_map] at hcontains

end DepBundle.Graph
