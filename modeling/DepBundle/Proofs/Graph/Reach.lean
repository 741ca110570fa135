import DepBundle.Chunk.Split
import DepBundle.Proofs.Data.Ordered
import DepBundle.Proofs.Graph.Walk
/-!
# Graphs — what modules bring along

The edges of a graph as relations, and what the walks over them come to.
A module draws another in where it asks for it with effect
(`Graph.Draws`); `mem_reached_iff` and `mem_sorted_iff` say that the two
walks of the library, the one that splits a program and the one that orders
it, follow exactly these edges. Where every target of an `import()` is an
entry, nothing that is drawn in is left out of the order
(`mem_sorted_of_reaches`).
-/

namespace DepBundle

namespace Graph

open Relation

variable {g : Graph} {inlined : Bool} {a b e : String}

theorem mem_keys_of_bundled (h : (g.bundled? a).isSome) : a ∈ g.vertices.keys := by
  obtain ⟨m, hm⟩ := Option.isSome_iff_exists.1 h
  obtain ⟨v, hv, -⟩ := Option.bind_eq_some_iff.1 hm
  exact OrderedMap.mem_keys_of_get? hv

theorem contains_of_bundled (h : (g.bundled? a).isSome) : g.vertices.contains a := by
  obtain ⟨m, hm⟩ := Option.isSome_iff_exists.1 h
  obtain ⟨v, hv, -⟩ := Option.bind_eq_some_iff.1 hm
  exact Option.isSome_iff_exists.2 ⟨v, hv⟩

/-- A module that is part of the output is not left to the host. -/
theorem isExternal_of_bundled (h : (g.bundled? a).isSome) : g.isExternal a = false := by
  obtain ⟨m, hm⟩ := Option.isSome_iff_exists.1 h
  obtain ⟨v, hv, hvm⟩ := Option.bind_eq_some_iff.1 hm
  cases v with
  | external => simp [Vertex.bundled?] at hvm
  | bundled m => simp [isExternal, hv]

/-! ## Edges -/

/-- A module asks for another before it runs. -/
def AsksFor (g : Graph) (a b : String) : Prop :=
  ∃ record, (record, b) ∈ g.requests a ∧ record.kind.isStatic

/-- A module may ask for another later, by an `import()`. -/
def MayAskFor (g : Graph) (a b : String) : Prop :=
  ∃ record, (record, b) ∈ g.requests a ∧ record.kind.isStatic = false

/-- A module brings another into every chunk it is in: it asks for it, or
may ask for it and `import()` stays inside its chunk. -/
def Draws (g : Graph) (inlined : Bool) (a b : String) : Prop :=
  (g.bundled? b).isSome ∧ (g.AsksFor a b ∨ inlined ∧ g.MayAskFor a b)

/-- A module is brought along by another, which is part of the output. -/
def Reaches (g : Graph) (inlined : Bool) (a b : String) : Prop :=
  (g.bundled? a).isSome ∧ ReflTransGen (g.Draws inlined) a b

/-- What modules ask for is part of the graph. -/
def Closed (g : Graph) : Prop := ∀ a, ∀ request ∈ g.requests a, g.vertices.contains request.2

/-- Every part of the output that an `import()` leads to is an entry. -/
def EntersLater (g : Graph) : Prop :=
  ∀ a b, g.MayAskFor a b → (g.bundled? b).isSome → ∃ e ∈ g.entries, e.id = b

theorem mem_staticTargets : b ∈ g.staticTargets a ↔ g.AsksFor a b := by
  simp only [staticTargets, List.mem_map, List.mem_filter, Prod.exists, exists_eq_right, AsksFor]

theorem mem_dependencies : b ∈ g.dependencies a ↔ g.AsksFor a b := by
  rw [dependencies, OrderedSet.mem_ofList, mem_staticTargets]

theorem mem_dynamicDependencies :
    b ∈ g.dynamicDependencies a ↔ g.MayAskFor a b ∧ g.isExternal b = false := by
  simp only [dynamicDependencies, OrderedSet.mem_ofList, List.mem_map, List.mem_filter, Prod.exists,
    exists_eq_right, MayAskFor, Bool.and_eq_true, Bool.not_eq_true']
  constructor
  · rintro ⟨record, hr, hk, hb⟩
    exact ⟨⟨record, hr, hk⟩, hb⟩
  · rintro ⟨⟨record, hr, hk⟩, hb⟩
    exact ⟨record, hr, hk, hb⟩

/-- Only a part of the output asks for anything. -/
theorem bundled_of_mem_requests {record : Module.Record} (h : (record, b) ∈ g.requests a) :
    (g.bundled? a).isSome := by
  rw [requests] at h
  split at h
  · rename_i hm
    rw [hm]
    rfl
  · simp at h

theorem closed_iff : g.Closed ↔
    ∀ a ∈ g.vertices.keys, ∀ request ∈ g.requests a, g.vertices.contains request.2 :=
  ⟨fun h a _ => h a, fun h a request hrequest =>
    h a (mem_keys_of_bundled (bundled_of_mem_requests hrequest)) request hrequest⟩

instance : Decidable g.Closed := decidable_of_iff _ closed_iff.symm

theorem Closed.contains (h : g.Closed) (hab : g.AsksFor a b) : g.vertices.contains b := by
  obtain ⟨record, hrecord, -⟩ := hab
  exact h a (record, b) hrecord

/-- A part of the output is loaded later where something may ask for it. -/
theorem isDynamicTarget_iff (hb : (g.bundled? b).isSome) :
    g.isDynamicTarget b ↔ ∃ a, g.MayAskFor a b := by
  rw [isDynamicTarget, List.any_eq_true]
  constructor
  · rintro ⟨a, -, hcontains⟩
    exact ⟨a, (mem_dynamicDependencies.1 (of_decide_eq_true hcontains)).1⟩
  · rintro ⟨a, hask⟩
    have ⟨record, hrecord, _⟩ := hask
    refine ⟨a, mem_keys_of_bundled (bundled_of_mem_requests hrecord), decide_eq_true ?_⟩
    exact mem_dynamicDependencies.2 ⟨hask, isExternal_of_bundled hb⟩

theorem entersLater_iff : g.EntersLater ↔
    ∀ a ∈ g.vertices.keys, ∀ b ∈ (g.dynamicDependencies a).toList, (g.bundled? b).isSome →
      ∃ e ∈ g.entries, e.id = b := by
  constructor
  · intro h a _ b hb
    exact h a b (mem_dynamicDependencies.1 hb).1
  · intro h a b hab hb
    obtain ⟨record, hr, -⟩ := id hab
    exact h a (mem_keys_of_bundled (bundled_of_mem_requests hr)) b
      (mem_dynamicDependencies.2 ⟨hab, isExternal_of_bundled hb⟩) hb

instance : Decidable g.EntersLater := decidable_of_iff _ entersLater_iff.symm

theorem Reaches.bundled (h : g.Reaches inlined a b) : (g.bundled? b).isSome := by
  obtain ⟨ha, hab⟩ := h
  cases hab with
  | refl => exact ha
  | tail _ hbc => exact hbc.1

theorem Reaches.draws {c : String} (h : g.Reaches inlined a b) (hbc : g.Draws inlined b c) :
    g.Reaches inlined a c :=
  ⟨h.1, h.2.tail hbc⟩

end Graph

/-! ## What an entry reaches -/

namespace ChunkGraph

open Relation DepBundle.Graph

variable {g : Graph} {inlined : Bool} {a b : String}

theorem mem_companions : b ∈ companions g inlined a ↔ g.Draws inlined a b := by
  have hdyn : b ∈ (if inlined then (g.dynamicDependencies a).toList else []) ↔
      inlined = true ∧ g.MayAskFor a b ∧ g.isExternal b = false := by
    cases inlined
    · simp
    · rw [if_pos rfl]
      exact mem_dynamicDependencies.trans (and_iff_right rfl).symm
  have hstat : b ∈ (g.dependencies a).toList ↔ g.AsksFor a b := mem_dependencies
  simp only [companions, List.mem_filter, List.mem_append, hdyn, hstat]
  constructor
  · rintro ⟨h | ⟨hin, hm, -⟩, hb⟩
    · exact ⟨hb, Or.inl h⟩
    · exact ⟨hb, Or.inr ⟨hin, hm⟩⟩
  · rintro ⟨hb, h | ⟨hin, hm⟩⟩
    · exact ⟨Or.inl h, hb⟩
    · exact ⟨Or.inr ⟨hin, hm, isExternal_of_bundled hb⟩, hb⟩

theorem leads_companions : Leads (companions g inlined) = g.Draws inlined := by
  funext a b
  exact propext mem_companions

/-- **What the walk from an entry comes to is what the entry reaches.** -/
theorem mem_reached_iff {entry : Graph.Entry} :
    b ∈ reached g inlined entry ↔ g.Reaches inlined entry.id b := by
  have hall : Encloses (companions g inlined) g.vertices.keys := fun _ _ b hb =>
    mem_keys_of_bundled (mem_companions.1 hb).1
  rw [reached, mem_postOrder hall (Nat.le_of_eq OrderedMap.length_keys), leads_companions]
  · simp only [List.mem_filter, List.mem_singleton]
    constructor
    · rintro ⟨s, ⟨rfl, hs⟩, hsb⟩
      exact ⟨hs, hsb⟩
    · rintro ⟨hs, hsb⟩
      exact ⟨_, ⟨rfl, hs⟩, hsb⟩
  · intro s hs
    rw [List.mem_filter] at hs
    exact mem_keys_of_bundled hs.2

end ChunkGraph

/-! ## The order modules run in -/

namespace Graph

open Relation

variable {g : Graph} {inlined : Bool} {a b e : String}

/-- The edges that the order follows. -/
def orderNext (g : Graph) (a : String) : List String :=
  (g.staticTargets a).filter g.vertices.contains

theorem encloses_orderNext : Encloses g.orderNext g.vertices.keys := by
  intro _ _ b hb
  rw [orderNext, List.mem_filter] at hb
  exact OrderedMap.mem_keys_of_contains hb.2

theorem mem_starts : ∀ a ∈ (g.entries.map (·.id)).filter g.vertices.contains,
    a ∈ g.vertices.keys := by
  intro a ha
  rw [List.mem_filter] at ha
  exact OrderedMap.mem_keys_of_contains ha.2

theorem mem_runOrder : b ∈ g.runOrder ↔
    ∃ e ∈ g.entries, g.vertices.contains e.id ∧ ReflTransGen (Leads g.orderNext) e.id b := by
  change b ∈ postOrder g.orderNext _ _ ↔ _
  rw [mem_postOrder encloses_orderNext (Nat.le_of_eq OrderedMap.length_keys) mem_starts]
  simp only [List.mem_filter, List.mem_map]
  constructor
  · rintro ⟨s, ⟨⟨e, he, rfl⟩, hs⟩, hsb⟩
    exact ⟨e, he, hs, hsb⟩
  · rintro ⟨e, he, hs, hsb⟩
    exact ⟨_, ⟨⟨e, he, rfl⟩, hs⟩, hsb⟩

theorem nodup_runOrder : g.runOrder.Nodup := by
  change (postOrder g.orderNext _ _).Nodup
  exact nodup_postOrder encloses_orderNext (Nat.le_of_eq OrderedMap.length_keys) mem_starts

/-- A module in the order runs at its place in it. -/
theorem position?_eq (h : a ∈ g.runOrder) : g.link.position? a = some (g.runOrder.idxOf a) := by
  change g.runOrder.idxOf? a = _
  refine List.idxOf?_eq_some_iff.2 ⟨List.idxOf_lt_length_of_mem h, List.getElem_idxOf _, ?_⟩
  intro j hj he
  have hlt : j < g.runOrder.length := Nat.lt_trans hj (List.idxOf_lt_length_of_mem h)
  have := nodup_runOrder.idxOf_getElem j hlt
  rw [he] at this
  omega

theorem pairwise_idxOf_lt {l : List String} (h : l.Nodup) :
    l.Pairwise fun a b => l.idxOf a < l.idxOf b := by
  rw [List.pairwise_iff_getElem]
  intro i j hi hj hij
  rwa [h.idxOf_getElem i hi, h.idxOf_getElem j hj]

/-- Modules that stand as in the order run one after another. -/
theorem exists_times_of_sublist {ids : List String} (h : ids.Sublist g.runOrder) :
    ∃ times : List ℕ, ids.map g.link.position? = times.map some ∧ times.Pairwise (· < ·) := by
  refine ⟨ids.map g.runOrder.idxOf, ?_, ?_⟩
  · rw [List.map_map]
    exact List.map_congr_left fun id hid => position?_eq (h.subset hid)
  · rw [List.pairwise_map]
    exact (pairwise_idxOf_lt nodup_runOrder).sublist h

/-- The order is closed under asking. -/
theorem mem_runOrder_of_asksFor (ha : a ∈ g.runOrder) (hab : g.AsksFor a b)
    (hb : g.vertices.contains b) : b ∈ g.runOrder := by
  obtain ⟨e, he, hc, hea⟩ := mem_runOrder.1 ha
  refine mem_runOrder.2 ⟨e, he, hc, hea.tail ?_⟩
  exact List.mem_filter.2 ⟨mem_staticTargets.2 hab, hb⟩

theorem mem_runOrder_of_entry (he : ∃ e ∈ g.entries, e.id = a) (ha : g.vertices.contains a) :
    a ∈ g.runOrder := by
  obtain ⟨e, he, rfl⟩ := he
  exact mem_runOrder.2 ⟨e, he, ha, ReflTransGen.refl⟩

theorem mem_sorted_iff : b ∈ g.link.sorted ↔ b ∈ g.runOrder ∧ (g.bundled? b).isSome :=
  List.mem_filter

/-- **Nothing that an entry draws in is left out of the order.** What is
drawn in by an `import()` is an entry itself. -/
theorem mem_sorted_of_reaches (hlater : g.EntersLater) (he : ∃ e' ∈ g.entries, e'.id = e)
    (h : g.Reaches inlined e b) : b ∈ g.link.sorted := by
  refine mem_sorted_iff.2 ⟨?_, h.bundled⟩
  obtain ⟨hs, heb⟩ := h
  induction heb with
  | refl => exact mem_runOrder_of_entry he (contains_of_bundled hs)
  | tail _ hbc ih =>
    obtain ⟨hc, hask | ⟨-, hmay⟩⟩ := hbc
    · exact mem_runOrder_of_asksFor ih hask (contains_of_bundled hc)
    · exact mem_runOrder_of_entry (hlater _ _ hmay hc) (contains_of_bundled hc)

end Graph

end DepBundle
