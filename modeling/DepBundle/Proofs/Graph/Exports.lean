import DepBundle.Graph.Linked
import DepBundle.Proofs.Graph.Reach
/-!
# Graphs — what modules export

The exports of a module are settled from those of the modules before it and
never change afterwards, so in the end they are related as the text of a
module says (`mem_names_exportsOf_link`): a module exports its own names
and, but for `default`, those of what it passes on wholesale. What runs
later contributes its own names only, and that is only so in a circle
(`runsBefore_of_asksFor`).
-/

namespace DepBundle.Graph

open Relation

variable {g : Graph} {order before after ids : List String} {settled : OrderedMap String Exports}
  {id target name : String} {m : Bundled}

/-- Modules stand under their ids. -/
def Keyed (g : Graph) : Prop := ∀ id m, g.bundled? id = some m → m.id = id

theorem keyed_iff : g.Keyed ↔
    ∀ id ∈ g.vertices.keys, (g.bundled? id).all fun m => m.id == id := by
  simp only [Option.all_eq_true, beq_iff_eq]
  exact ⟨fun h id _ => h id, fun h id m hm => h id (mem_keys_of_bundled (hm ▸ rfl)) m hm⟩

instance : Decidable g.Keyed := decidable_of_iff _ keyed_iff.symm

/-! ## Settling the exports -/

/-- The exports after those of some more modules are settled. -/
def settle (g : Graph) (order : List String) (settled : OrderedMap String Exports)
    (ids : List String) : OrderedMap String Exports :=
  (ids.filterMap g.bundled?).foldl
    (fun settled m => settled.insert m.id (g.exportsOf order settled m)) settled

theorem settle_append : g.settle order settled (before ++ after) =
    g.settle order (g.settle order settled before) after := by
  rw [settle, List.filterMap_append, List.foldl_append]
  rfl

theorem settle_cons (hm : g.bundled? id = some m) : g.settle order settled (id :: after) =
    g.settle order (settled.insert m.id (g.exportsOf order settled m)) after := by
  rw [settle, List.filterMap_cons_some hm, List.foldl_cons]
  rfl

/-- What is settled stays as it is. -/
theorem get?_settle_of_notMem (hg : g.Keyed) (hid : id ∉ ids) :
    (g.settle order settled ids).get? id = settled.get? id := by
  induction ids generalizing settled with
  | nil => rfl
  | cons other ids ih =>
    rw [List.mem_cons, not_or] at hid
    cases hother : g.bundled? other with
    | none =>
      have hskip : g.settle order settled (other :: ids) = g.settle order settled ids := by
        rw [settle, List.filterMap_cons_none hother]
        rfl
      rw [hskip, ih hid.2]
    | some m =>
      have hne : ¬ id = m.id := hg other m hother ▸ hid.1
      rw [settle_cons hother, ih hid.2, OrderedMap.get?_insert, if_neg hne]

/-- **Exports are settled when it is a module's turn.** -/
theorem exportsOf_link (hg : g.Keyed) (hm : g.bundled? id = some m)
    (horder : g.runOrder = before ++ id :: after) :
    g.link.exportsOf id = g.exportsOf g.runOrder (g.settle g.runOrder .empty before) m := by
  have hnodup : (before ++ id :: after).Nodup := horder ▸ nodup_runOrder
  -- the order is cut at the module: what comes after it does not touch its exports
  have hafter : id ∉ after := (List.nodup_cons.1 (List.nodup_append.1 hnodup).2.1).1
  have hget : (g.settle g.runOrder .empty g.runOrder).get? id =
      some (g.exportsOf g.runOrder (g.settle g.runOrder .empty before) m) := by
    conv_lhs => arg 1; arg 4; rw [horder]
    rw [settle_append, settle_cons hm, get?_settle_of_notMem hg hafter, OrderedMap.get?_insert,
      if_pos (hg id m hm).symm]
  change ((g.settle g.runOrder .empty g.runOrder).get? id).getD {} = _
  rw [hget, Option.getD_some]

/-- What has had its turn is settled for good. -/
theorem get?_settle_before (hg : g.Keyed) (horder : g.runOrder = before ++ id :: after)
    (htarget : target ∈ before) :
    ((g.settle g.runOrder .empty before).get? target).getD {} = g.link.exportsOf target := by
  have hnodup : (before ++ id :: after).Nodup := horder ▸ nodup_runOrder
  have hlater : target ∉ id :: after := fun h =>
    (List.nodup_append.1 hnodup).2.2 target htarget target h rfl
  change _ = ((g.settle g.runOrder .empty g.runOrder).get? target).getD {}
  conv_rhs => arg 1; arg 1; arg 4; rw [horder]
  rw [settle_append, get?_settle_of_notMem hg hlater]

/-! ## What a module exports -/

/-- The exports of a module, by those settled before it. -/
theorem mem_names_exportsOf : name ∈ (g.exportsOf order settled m).names ↔
    name ∈ m.localExports ∨ ∃ target ∈ g.starTargets m.id, ∃ t, g.bundled? target = some t ∧
      name ≠ "default" ∧ name ∈ if runsBefore order target m.id
        then ((settled.get? target).getD {}).names else t.localExports := by
  rw [exportsOf, foldl_iff (P := fun e : Exports => name ∈ e.names)]
  intro e target
  cases ht : g.bundled? target with
  | none => simp
  | some t =>
    simp only [OrderedSet.mem_insertMany, List.mem_filter, bne_iff_ne, ne_eq]
    rw [or_comm]
    simp only [Option.some.injEq, exists_eq_left', and_comm]
    rfl

theorem runsBefore_iff (horder : order = before ++ id :: after) (hnodup : order.Nodup) :
    runsBefore order target id ↔ target ∈ before := by
  rw [horder, List.nodup_append] at hnodup
  have hid : id ∉ before := fun h => hnodup.2.2 id h id (List.mem_cons_self ..) rfl
  have hplace : order.idxOf id = before.length := by
    rw [horder, List.idxOf_append_of_notMem hid, List.idxOf_cons_self, Nat.add_zero]
  rw [runsBefore, decide_eq_true_iff, hplace, horder]
  constructor
  · intro hlt
    by_contra htarget
    rw [List.idxOf_append_of_notMem htarget] at hlt
    omega
  · intro htarget
    rw [List.idxOf_append_of_mem htarget]
    exact List.idxOf_lt_length_of_mem htarget

/-- **What a module exports in the end.** -/
theorem mem_names_exportsOf_link (hg : g.Keyed) (hm : g.bundled? id = some m)
    (hrun : id ∈ g.runOrder) : name ∈ (g.link.exportsOf id).names ↔
      name ∈ m.localExports ∨ ∃ target ∈ g.starTargets id, ∃ t, g.bundled? target = some t ∧
        name ≠ "default" ∧ name ∈ if runsBefore g.runOrder target id
          then (g.link.exportsOf target).names else t.localExports := by
  obtain ⟨before, after, horder⟩ := List.append_of_mem hrun
  rw [exportsOf_link hg hm horder, mem_names_exportsOf, hg id m hm]
  have hsettled : ∀ target, runsBefore g.runOrder target id →
      ((g.settle g.runOrder .empty before).get? target).getD {} = g.link.exportsOf target :=
    fun target h => get?_settle_before hg horder ((runsBefore_iff horder nodup_runOrder).1 h)
  refine or_congr_right (exists_congr fun target => and_congr_right fun _ =>
    exists_congr fun t => and_congr_right fun _ => and_congr_right fun _ => ?_)
  split
  · rename_i hbefore
    rw [hsettled target hbefore]
  · exact Iff.rfl

/-- **What a module asks for runs before it,** unless that leads back. -/
theorem runsBefore_of_asksFor (hrun : id ∈ g.runOrder) (hasks : g.AsksFor id target)
    (htarget : g.vertices.contains target)
    (hback : ¬ ReflTransGen (Leads g.orderNext) target id) :
    runsBefore g.runOrder target id := by
  obtain ⟨before, after, horder⟩ := List.append_of_mem hrun
  have hnext : target ∈ g.orderNext id :=
    List.mem_filter.2 ⟨mem_staticTargets.2 hasks, htarget⟩
  have hordered : Ordered g.orderNext [] g.runOrder :=
    ordered_postOrder encloses_orderNext (Nat.le_of_eq OrderedMap.length_keys) mem_starts
  rcases hordered before id after horder target hnext with h | h
  · exact (runsBefore_iff horder nodup_runOrder).2 h
  · exact absurd h hback

end DepBundle.Graph
