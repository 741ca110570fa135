import DepBundle.Proofs.Graph.Outcome
import DepBundle.Proofs.Graph.Reach
/-!
# Graphs — the order of the modules in a graph

A graph holds its modules in the order they were come upon, which is another
whenever tasks are finished in another order. Graphs that differ in it and in
nothing else (`Renumbered`) have the same requests, run in the same order
and export the same: all that is made of a graph by looking modules up.
-/

namespace DepBundle.Graph

/-- **Graphs that are the same but for the order of their modules**, and for
what the manifests say of modules. -/
structure Renumbered (g g' : Graph) : Prop where
  keys : g.vertices.keys.Perm g'.vertices.keys
  vertices : ∀ id, SameVertex (g.vertices.get? id) (g'.vertices.get? id)
  entries : g.entries = g'.entries

/-- A module but for what its manifest says. -/
def Bundled.plain (m : Bundled) : Bundled := { m with hasSideEffects := false }

namespace Renumbered

variable {g g' : Graph} {α : Type}

/-- What is made of one module. -/
theorem map_bundled (h : Renumbered g g') {f : Bundled → α} (hf : ∀ m, f m.plain = f m)
    (id : String) : (g.bundled? id).map f = (g'.bundled? id).map f :=
  (h.vertices id).map_eq fun m b => (hf { m with hasSideEffects := b }).symm.trans (hf m)

/-- What is made of several. -/
theorem map_modules (h : Renumbered g g') {f : Bundled → α} (hf : ∀ m, f m.plain = f m)
    (ids : List String) : (ids.filterMap g.bundled?).map f = (ids.filterMap g'.bundled?).map f := by
  rw [List.map_filterMap, List.map_filterMap]
  exact List.filterMap_congr fun id _ => h.map_bundled hf id

theorem isSome_bundled (h : Renumbered g g') :
    (fun id => (g.bundled? id).isSome) = fun id => (g'.bundled? id).isSome := by
  funext id
  simpa using congrArg Option.isSome (h.map_bundled (f := fun _ => ()) (fun _ => rfl) id)

theorem contains (h : Renumbered g g') : g.vertices.contains = g'.vertices.contains := by
  funext id
  have hvertex := h.vertices id
  rw [OrderedMap.contains, OrderedMap.contains]
  generalize g.vertices.get? id = v at hvertex
  generalize g'.vertices.get? id = v' at hvertex
  cases hvertex <;> rfl

theorem size (h : Renumbered g g') : g.vertices.size = g'.vertices.size := by
  rw [← OrderedMap.length_keys, ← OrderedMap.length_keys, h.keys.length_eq]

theorem isExternal (h : Renumbered g g') : g.isExternal = g'.isExternal := by
  funext id
  have hvertex := h.vertices id
  rw [Graph.isExternal, Graph.isExternal]
  generalize g.vertices.get? id = v at hvertex
  generalize g'.vertices.get? id = v' at hvertex
  cases hvertex <;> rfl

/-! ## Requests -/

theorem requests (h : Renumbered g g') : g.requests = g'.requests := by
  funext id
  rw [requests_eq, requests_eq, h.map_bundled (fun _ => rfl)]

theorem keyOf (h : Renumbered g g') : g.keyOf = g'.keyOf := by
  funext id
  exact congrArg (Option.getD · id) (h.map_bundled (f := Bundled.key) (fun _ => rfl) id)

theorem staticTargets (h : Renumbered g g') : g.staticTargets = g'.staticTargets := by
  funext id
  rw [Graph.staticTargets, Graph.staticTargets, h.requests]

theorem dependencies (h : Renumbered g g') : g.dependencies = g'.dependencies := by
  funext id
  rw [Graph.dependencies, Graph.dependencies, h.staticTargets]

theorem dynamicDependencies (h : Renumbered g g') :
    g.dynamicDependencies = g'.dynamicDependencies := by
  funext id
  simp only [Graph.dynamicDependencies, h.requests, h.isExternal]

theorem externalBindings (h : Renumbered g g') : g.externalBindings = g'.externalBindings := by
  funext id
  simp only [Graph.externalBindings, h.requests, h.isExternal]

theorem starTargets (h : Renumbered g g') : g.starTargets = g'.starTargets := by
  funext id
  rw [Graph.starTargets, Graph.starTargets, h.requests]

/-- It does not matter in which order importers are asked. -/
theorem isDynamicTarget (h : Renumbered g g') : g.isDynamicTarget = g'.isDynamicTarget := by
  funext id
  rw [Bool.eq_iff_iff, Graph.isDynamicTarget, Graph.isDynamicTarget, List.any_eq_true,
    List.any_eq_true, h.dynamicDependencies]
  simp only [h.keys.mem_iff]

/-! ## The order and the exports -/

theorem runOrder (h : Renumbered g g') : g.runOrder = g'.runOrder := by
  simp only [Graph.runOrder, h.staticTargets, h.contains, h.size, h.entries]

theorem exportsOf (h : Renumbered g g') : g.exportsOf = g'.exportsOf := by
  funext order settled m
  simp only [Graph.exportsOf, h.starTargets]
  congr 1
  funext e target
  have hnames := h.map_bundled (f := Bundled.localExports) (fun _ => rfl) target
  cases hm : g.bundled? target <;> cases hm' : g'.bundled? target <;> simp_all

/-- What modules export is settled alike. -/
theorem settleExports (h : Renumbered g g') (order : List String) :
    g.settleExports order = g'.settleExports order := by
  have hplain : ∀ g : Graph, g.settleExports order =
      ((order.filterMap g.bundled?).map Bundled.plain).foldl (fun settled m =>
        settled.insert m.id (g.exportsOf order settled m)) .empty := by
    intro g
    rw [List.foldl_map]
    rfl
  rw [hplain, hplain, h.map_modules (fun _ => rfl), h.exportsOf]

theorem order (h : Renumbered g g') : g.link.order = g'.link.order := h.runOrder

theorem exports (h : Renumbered g g') : g.link.exports = g'.link.exports := by
  change g.settleExports g.runOrder = g'.settleExports g'.runOrder
  rw [h.runOrder, h.settleExports]

theorem sorted (h : Renumbered g g') : g.link.sorted = g'.link.sorted := by
  change g.runOrder.filter _ = g'.runOrder.filter _
  rw [h.runOrder]
  exact congrArg (List.filter · g'.runOrder) h.isSome_bundled

end Renumbered

/-! ## The table of modules -/

variable {g g' : Graph}

/-- The modules stand as their ids do. -/
theorem modules_eq (g : Graph) : g.modules = g.vertices.keys.filterMap g.bundled? := by
  rw [modules, OrderedMap.values, OrderedMap.keys, List.filterMap_map, List.filterMap_map]
  refine List.filterMap_congr fun e he => ?_
  rw [Function.comp_apply, Function.comp_apply, bundled?, OrderedMap.get?_eq_some_iff.2 he]
  rfl

/-- What is made of the modules one by one is the same, in some order. -/
theorem Renumbered.perm_modules {α : Type} (h : Renumbered g g') {f : Bundled → Option α}
    (hf : ∀ m, f m.plain = f m) : (g.modules.filterMap f).Perm (g'.modules.filterMap f) := by
  have hbind : ∀ id, (g.bundled? id).bind f = (g'.bundled? id).bind f := by
    intro id
    have hmap := congrArg Option.join (h.map_bundled hf id)
    cases hm : g.bundled? id <;> cases hm' : g'.bundled? id <;> simp_all
  rw [modules_eq, modules_eq, List.filterMap_filterMap, List.filterMap_filterMap,
    List.filterMap_congr fun id _ => hbind id]
  exact h.keys.filterMap _

theorem SameVertex.refl : ∀ v, SameVertex v v
  | none => .absent
  | some .external => .external
  | some (.bundled _) => .bundled rfl

/-- The modules of a graph in any other order. -/
def reordered (g : Graph) (es : List (String × Vertex)) (hes : es.Perm g.vertices.entries) :
    Graph where
  vertices := ⟨es, (hes.map _).nodup_iff.2 g.vertices.nodup⟩
  entries := g.entries

theorem renumbered_reordered {es : List (String × Vertex)} (hes : es.Perm g.vertices.entries) :
    Renumbered g (g.reordered es hes) where
  keys := (hes.map _).symm
  vertices id := by
    have hget : g.vertices.get? id = (g.reordered es hes).vertices.get? id := by
      ext v
      rw [OrderedMap.get?_eq_some_iff, OrderedMap.get?_eq_some_iff]
      exact hes.mem_iff.symm
    rw [hget]
    exact .refl _
  entries := rfl

/-! ## Programs that are loaded -/

section

variable {around : Surroundings} {start : List Resolved} {done done' : List Task} {l l' : Loading}
  {entries : List Entry}

/-- In whatever order tasks are finished, modules stand under their ids. -/
theorem keyed_of_order (horder : Loading.Order around start done l) (hend : l.remaining = 0)
    (hgraph : l.graph entries = .ok g) : g.Keyed := by
  intro id m hm
  obtain ⟨task, -, rfl, loaded, hload, rfl⟩ := horder.kept.exists_task
    (horder.kept.tasks_eq_nil hend) (get?_of_bundled (Loading.get?_of_graph hgraph) hm)
  exact (Task.loads_load hload).id

/-- **In whatever order tasks are finished,** the graphs are the same but for
the order of their modules. -/
theorem renumbered_of_orders (hside : OneSided around start)
    (horder : Loading.Order around start done l) (horder' : Loading.Order around start done' l')
    (hend : l.remaining = 0) (hend' : l'.remaining = 0) (hgraph : l.graph entries = .ok g)
    (hgraph' : l'.graph entries = .ok g') (hentries : g.entries = g'.entries) :
    Renumbered g g' := by
  have hsame := (horder.kept.whole (horder.kept.tasks_eq_nil hend) hside hgraph).same
    (horder'.kept.whole (horder'.kept.tasks_eq_nil hend') hside hgraph')
  exact ⟨hsame.keys, hsame.vertices, hentries⟩

end

end DepBundle.Graph
