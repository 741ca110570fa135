import DepBundle.Proofs.Data.Ordered
import DepBundle.Workspace.Member
import Mathlib.Logic.Relation
/-!
# Workspaces — what collecting members comes to

Members are collected through a queue. What has been collected may still
declare members that wait (`Covered`), so that at any time the members to be
collected in the end are those collected so far and those that the waiting
ones need (`mem_collect_iff`). Hence `mem_needed_iff`: the members needed by
some names are exactly those that one of the names leads to, from member to
member.
-/

namespace DepBundle.Workspace

open Relation

variable {members : Members} {names queue : List String} {collected : OrderedSet String}
  {a b n : String}

/-- A member declares another member. -/
def Declares (members : Members) (a b : String) : Prop :=
  ∃ m, members.get? a = some m ∧ b ∈ m.declared ∧ members.contains b

theorem declares_iff_of_get? {m : Member} (hm : members.get? a = some m) :
    Declares members a b ↔ b ∈ m.declared ∧ members.contains b := by
  simp [Declares, hm]

/-- A member needs another: it is the other, or comes to it through members
that declare one another. -/
def Needs (members : Members) (a b : String) : Prop :=
  members.contains a ∧ ReflTransGen (Declares members) a b

theorem Needs.refl (h : members.contains a) : Needs members a a := ⟨h, .refl⟩

theorem Needs.trans (h : Needs members a b) (h' : Needs members b n) : Needs members a n :=
  ⟨h.1, h.2.trans h'.2⟩

theorem Declares.needs (h : Declares members a b) (h' : Needs members b n) : Needs members a n :=
  have ⟨_, hm, _⟩ := h
  ⟨Option.isSome_iff_exists.2 ⟨_, hm⟩, .head h h'.2⟩

/-- Only members are needed. -/
theorem Needs.contains (h : Needs members a b) : members.contains b := by
  rcases ReflTransGen.cases_tail h.2 with rfl | ⟨_, -, _, -, -, hb⟩
  · exact h.1
  · exact hb

/-- Whatever the collected members declare is collected too or waits. -/
def Covered (members : Members) (queue : List String) (collected : OrderedSet String) : Prop :=
  ∀ a ∈ collected, ∀ b, Declares members a b → b ∈ collected ∨ b ∈ queue

/-- What a collected member leads to is collected or needed by one that
waits. -/
theorem Covered.leads (h : Covered members queue collected) (ha : a ∈ collected)
    (hn : ReflTransGen (Declares members) a n) :
    n ∈ collected ∨ ∃ q ∈ queue, Needs members q n := by
  induction hn using ReflTransGen.head_induction_on with
  | refl => exact .inl ha
  | head hab hbn ih =>
    rename_i _ b
    rcases h _ ha b hab with hb | hb
    · exact ih hb
    · have ⟨_, _, _, hmember⟩ := hab
      exact .inr ⟨b, hb, hmember, hbn⟩

/-- A name that is no member waits in vain: no member declares it as one. -/
theorem Covered.tail_of_not_contains (h : Covered members (a :: queue) collected)
    (hname : ¬ members.contains a) : Covered members queue collected := by
  intro m hm b hb
  have ⟨_, _, _, hmember⟩ := hb
  rcases h m hm b hb with hb | hb
  · exact .inl hb
  · exact .inr ((List.mem_cons.1 hb).resolve_left fun heq => hname (heq ▸ hmember))

/-- Nor need a member wait that is collected. -/
theorem Covered.tail_of_mem (h : Covered members (a :: queue) collected) (hin : a ∈ collected) :
    Covered members queue collected := by
  intro m hm b hb
  rcases h m hm b hb with hb | hb
  · exact .inl hb
  · rcases List.mem_cons.1 hb with rfl | hb
    · exact .inl hin
    · exact .inr hb

/-- A member that is collected has those it declares wait, the collected ones
aside. -/
theorem Covered.insert (h : Covered members (a :: queue) collected) {m : Member}
    (hm : members.get? a = some m) :
    Covered members
      (queue ++ m.declared.filter fun d => members.contains d && !(collected.insert a).contains d)
      (collected.insert a) := by
  intro m' hm' b hb
  by_cases hin : b ∈ collected.insert a
  · exact .inl hin
  refine .inr (List.mem_append.2 ?_)
  rcases OrderedSet.mem_insert.1 hm' with rfl | hm'
  · have hb := (declares_iff_of_get? hm).1 hb
    exact .inr (List.mem_filter.2 ⟨hb.1, by simp [hb.2, OrderedSet.contains, hin]⟩)
  · rcases h m' hm' b hb with hb | hb
    · exact absurd (OrderedSet.mem_insert.2 (.inr hb)) hin
    · refine .inl ((List.mem_cons.1 hb).resolve_left fun heq => hin ?_)
      exact heq ▸ OrderedSet.mem_insert.2 (.inl rfl)

/-- **Collecting ends with what was collected before and what the waiting
names need.** -/
theorem mem_collect_iff (h : Covered members queue collected) :
    n ∈ collect members queue collected ↔
      n ∈ collected ∨ ∃ q ∈ queue, Needs members q n := by
  -- each step keeps what is covered, so `ih` says what the rest comes to
  fun_induction collect with
  | case1 collected => simp
  | case2 name queue collected hname ih =>
    have hno : ¬ members.contains name := by simp [OrderedMap.contains, hname]
    have hneeds : ¬ Needs members name n := fun hn => hno hn.1
    rw [ih (h.tail_of_not_contains hno)]
    simp [hneeds]
  | case3 name queue collected m hname hin ih =>
    have hcovered := h.tail_of_mem hin
    have hleads := hcovered.leads (n := n) hin
    rw [ih hcovered]
    simp only [List.mem_cons, exists_eq_or_imp]
    exact ⟨Or.imp_right .inr, fun hn => hn.elim .inl fun hn => hn.elim (hleads ·.2) .inr⟩
  | case4 name queue collected m hname hout collected' ih =>
    have hself : name ∈ collected' := OrderedSet.mem_insert.2 (.inl rfl)
    have hcovered := h.insert hname
    rw [ih hcovered]
    constructor
    · rintro (hn | ⟨q, hq, hn⟩)
      · rcases OrderedSet.mem_insert.1 hn with rfl | hn
        · exact .inr ⟨n, by simp, .refl (Option.isSome_iff_exists.2 ⟨m, hname⟩)⟩
        · exact .inl hn
      · rcases List.mem_append.1 hq with hq | hq
        · exact .inr ⟨q, by simp [hq], hn⟩
        · have hq := List.mem_filter.1 hq
          exact .inr ⟨name, by simp, ((declares_iff_of_get? hname).2 ⟨hq.1, hn.1⟩).needs hn⟩
    · rintro (hn | ⟨q, hq, hn⟩)
      · exact .inl (OrderedSet.mem_insert.2 (.inr hn))
      · rcases List.mem_cons.1 hq with rfl | hq
        · exact hcovered.leads hself hn.2
        · exact .inr ⟨q, List.mem_append_left _ hq, hn⟩

/-- **The members that some names need are those the names lead to**, from
member to member. -/
theorem mem_needed_iff : n ∈ needed members names ↔ ∃ m ∈ names, Needs members m n := by
  have hcovered : Covered members (names.filter members.contains) .empty := by
    intro a ha
    cases ha
  rw [needed, mem_collect_iff hcovered]
  constructor
  · rintro (hn | ⟨q, hq, hn⟩)
    · cases hn
    · exact ⟨q, (List.mem_filter.1 hq).1, hn⟩
  · rintro ⟨m, hm, hn⟩
    exact .inr ⟨m, List.mem_filter.2 ⟨hm, hn.1⟩, hn⟩

end DepBundle.Workspace
