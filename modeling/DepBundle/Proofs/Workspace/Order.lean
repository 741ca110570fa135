import DepBundle.Proofs.Workspace.Member
import Mathlib.Data.Nat.Find
import Mathlib.Order.Bounds.Defs
/-!
# Workspaces — the order in which members are needed

What is needed is listed breadth first (`BreadthFirst`): the names that were
asked for, then what the first of these declares, then what the second
declares, and so on along the list itself, each member where it stands first
(`needed_eq`). Hence whatever can be come to in a number of steps stands
before all that cannot (`needed_breadthFirst`), and members that are equally
far stand as the names asked for do, or else as the first that declares one
and the first that declares the other (`needed_closes`).
-/

namespace DepBundle.Workspace

open Relation

variable {members : Members} {names queue : List String} {collected : OrderedSet String}
  {a b n : String} {k : ℕ}

/-- The members that a member declares, in order. -/
def declaredMembers (members : Members) (name : String) : List String :=
  ((members.get? name).map fun m => m.declared.filter members.contains).getD []

theorem mem_declaredMembers : b ∈ declaredMembers members a ↔ Declares members a b := by
  rw [declaredMembers, Declares]
  cases members.get? a with
  | none => simp
  | some m => simp

/-- A member is a number of steps away at most, from member to member that
it declares. -/
def Within (members : Members) (names : List String) : ℕ → String → Prop
  | 0, n => n ∈ names ∧ members.contains n
  | k + 1, n => Within members names k n ∨ ∃ a, Within members names k a ∧ Declares members a n

/-- **Breadth first:** the order in which a queue comes to members. -/
structure BreadthFirst (members : Members) (names order : List String) : Prop where
  /-- First come the names asked for, then what the members in the order
  declare, one after another; each counts where it stands first. -/
  discovered : order = (OrderedSet.ofList
    (names.filter members.contains ++ order.flatMap (declaredMembers members))).toList
  /-- What is nearer stands before what is farther. -/
  nearest : order.Pairwise fun a b =>
    ∀ k, Within members names k b → Within members names k a

/-! ## Where members come from -/

/-- **Collecting goes along the list it makes.** What it adds is what waits,
and what the added members declare in turn. -/
theorem exists_collect_eq (hqueue : ∀ q ∈ queue, members.contains q) :
    ∃ added, (collect members queue collected).toList = collected.toList ++ added ∧
      collected.insertMany (queue ++ added.flatMap (declaredMembers members)) =
        collect members queue collected := by
  fun_induction collect with
  | case1 collected => exact ⟨[], (List.append_nil _).symm, rfl⟩
  | case2 name queue collected hname ih =>
    have hmember := hqueue name (List.mem_cons_self ..)
    simp [OrderedMap.contains, hname] at hmember
  | case3 name queue collected m hname hin ih =>
    obtain ⟨added, hlist, hadded⟩ := ih fun q hq => hqueue q (List.mem_cons_of_mem _ hq)
    have hstays : collected.insert name = collected := OrderedSet.insert_eq_self hin
    refine ⟨added, hlist, ?_⟩
    rw [← hadded, List.cons_append]
    change (collected.insert name).insertMany (queue ++ _) = _
    rw [hstays]
  | case4 name queue collected m hname hout collected' ih =>
    have hdeclared : declaredMembers members name = m.declared.filter members.contains := by
      simp [declaredMembers, hname]
    have hwaiting : ∀ q ∈ queue ++ m.declared.filter fun d =>
        members.contains d && !collected'.contains d, members.contains q := by
      intro q hq
      rcases List.mem_append.1 hq with hq | hq
      · exact hqueue q (List.mem_cons_of_mem _ hq)
      · have hboth := (List.mem_filter.1 hq).2
        exact (Bool.and_eq_true_iff.1 hboth).1
    obtain ⟨added, hlist, hadded⟩ := ih hwaiting
    refine ⟨name :: added, ?_, ?_⟩
    · rw [hlist, OrderedSet.toList_insert, if_neg hout, List.append_assoc, List.singleton_append]
    · -- what was collected already is passed over in the end all the same
      have hfilter : (m.declared.filter fun d => members.contains d && !collected'.contains d) =
          (declaredMembers members name).filter fun d => !collected'.contains d := by
        rw [hdeclared, List.filter_filter]
        exact List.filter_congr fun d _ => Bool.and_comm ..
      have hpassed : ∀ s : OrderedSet String, (∀ d ∈ collected', d ∈ s) →
          s.insertMany ((declaredMembers members name).filter fun d => !collected'.contains d) =
            s.insertMany (declaredMembers members name) := by
        intro s hs
        refine OrderedSet.insertMany_filter fun d _ hd => hs d ?_
        simpa [OrderedSet.contains] using hd
      have hkeeps : ∀ d ∈ collected', d ∈ collected'.insertMany queue := fun d hd =>
        OrderedSet.mem_insertMany.2 (Or.inr hd)
      rw [← hadded, hfilter, List.flatMap_cons, List.cons_append]
      change collected'.insertMany (queue ++ (_ ++ _)) = _
      rw [OrderedSet.insertMany_append, OrderedSet.insertMany_append, List.append_assoc,
        OrderedSet.insertMany_append, OrderedSet.insertMany_append, hpassed _ hkeeps]

/-- **What is needed is found along the list of it.** -/
theorem needed_eq (members : Members) (names : List String) :
    needed members names = .ofList (names.filter members.contains ++
      (needed members names).toList.flatMap (declaredMembers members)) := by
  have hqueue : ∀ q ∈ names.filter members.contains, members.contains q := fun q hq =>
    (List.mem_filter.1 hq).2
  obtain ⟨added, hlist, hadded⟩ : ∃ added, (needed members names).toList = added ∧ _ :=
    exists_collect_eq hqueue
  rw [hlist]
  exact hadded.symm

/-! ## How far members are -/

theorem Within.zero_le (h : Within members names 0 n) (k : ℕ) : Within members names k n := by
  induction k with
  | zero => exact h
  | succ k ih => exact Or.inl ih

/-- What can be come to is needed. -/
theorem Within.needed (h : Within members names k n) : n ∈ needed members names := by
  rw [mem_needed_iff]
  induction k generalizing n with
  | zero => exact ⟨n, h.1, .refl h.2⟩
  | succ k ih =>
    rcases h with h | ⟨a, ha, hdeclares⟩
    · exact ih h
    · obtain ⟨m, hm, hneeds⟩ := ih ha
      exact ⟨m, hm, hneeds.1, hneeds.2.tail hdeclares⟩

/-- What stands before a member is no farther. -/
theorem Within.of_sublist (hb : Within members names k b)
    (h : [a, b].Sublist (Workspace.needed members names).toList) : Within members names k a := by
  have hfound : ∀ front rest, names.filter members.contains ++
      (Workspace.needed members names).toList.flatMap (declaredMembers members) = front ++ rest →
        ∀ a b, [a, b].Sublist (Workspace.needed members names).toList → b ∈ front → a ∈ front := by
    intro front rest hsplit a b hab
    rw [needed_eq, hsplit] at hab
    exact OrderedSet.mem_of_sublist_ofList hab
  -- by how far the later of the two is
  induction k generalizing a b with
  | zero =>
    have hmem := hfound _ _ rfl a b h (List.mem_filter.2 hb)
    exact List.mem_filter.1 hmem
  | succ k ih =>
    rcases hb with hb | ⟨p, hp, hdeclares⟩
    · exact Or.inl (ih hb h)
    · -- `b` is found where `p` declares it, and `a` no later
      obtain ⟨before, after, hlist⟩ := List.append_of_mem (hp.needed : p ∈ _)
      have hsplit : names.filter members.contains ++
          (Workspace.needed members names).toList.flatMap (declaredMembers members) =
            (names.filter members.contains ++ (before ++ [p]).flatMap (declaredMembers members)) ++
              after.flatMap (declaredMembers members) := by
        rw [hlist]
        simp
      have hfront : b ∈ names.filter members.contains ++
          (before ++ [p]).flatMap (declaredMembers members) := by
        refine List.mem_append_right _ (List.mem_flatMap.2 ⟨p, ?_, mem_declaredMembers.2 hdeclares⟩)
        exact List.mem_append_right _ (List.mem_singleton_self p)
      rcases List.mem_append.1 (hfound _ _ hsplit a b h hfront) with ha | ha
      · exact Within.zero_le (List.mem_filter.1 ha) (k + 1)
      · obtain ⟨q, hq, ha⟩ := List.mem_flatMap.1 ha
        refine Or.inr ⟨q, ?_, mem_declaredMembers.1 ha⟩
        rcases List.mem_append.1 hq with hq | hq
        · refine ih hp ?_
          rw [hlist]
          exact (List.singleton_sublist.2 hq).append
            (List.singleton_sublist.2 (List.mem_cons_self ..))
        · rwa [List.mem_singleton.1 hq]

/-- **What is needed is listed breadth first.** -/
theorem needed_breadthFirst (members : Members) (names : List String) :
    BreadthFirst members names (needed members names).toList where
  discovered := congrArg OrderedSet.toList (needed_eq members names)
  nearest := List.pairwise_iff_forall_sublist.2 fun h _ hb => hb.of_sublist h

/-! ## The turns of the queue -/

/-- What waits and what is collected. -/
abbrev Queued := List String × OrderedSet String

/-- One turn of the queue: the name in front is passed over, or collected and
what it declares waits behind the others. -/
inductive Turns (members : Members) : Queued → Queued → Prop where
  | unknown {name : String} {queue : List String} {collected : OrderedSet String}
      (h : members.get? name = none) : Turns members (name :: queue, collected) (queue, collected)
  | again {name : String} {queue : List String} {collected : OrderedSet String}
      (h : name ∈ collected) : Turns members (name :: queue, collected) (queue, collected)
  | collects {name : String} {queue : List String} {collected : OrderedSet String} {m : Member}
      (h : members.get? name = some m) (new : name ∉ collected) :
      Turns members (name :: queue, collected)
        (queue ++ m.declared.filter (fun d =>
          members.contains d && !(collected.insert name).contains d), collected.insert name)

/-- **The turns end:** a turn leaves fewer members to collect, or fewer names
that wait. -/
theorem acc_turns (members : Members) (s : Queued) : Acc (fun s' s => Turns members s s') s := by
  have hshorter : ∀ s s', Turns members s s' →
      Prod.Lex (· < ·) (· < ·) ((remaining members s'.2).length, s'.1.length)
        ((remaining members s.2).length, s.1.length) := by
    intro s s' h
    cases h with
    | unknown h => exact Prod.Lex.right _ (Nat.lt_succ_self _)
    | again h => exact Prod.Lex.right _ (Nat.lt_succ_self _)
    | collects h new => exact Prod.Lex.left _ _ (length_remaining_insert_lt h new)
  have hwf := InvImage.wf (fun s : Queued => ((remaining members s.2).length, s.1.length))
    (Prod.lex Nat.lt_wfRel Nat.lt_wfRel).wf
  exact (Subrelation.wf (fun {s'} {s} h => hshorter s s' h) hwf).apply s

/-- **They end with what is collected.** -/
theorem turns_collect (members : Members) (queue : List String) (collected : OrderedSet String) :
    ReflTransGen (Turns members) (queue, collected) ([], collect members queue collected) := by
  fun_induction collect with
  | case1 collected => exact .refl
  | case2 name queue collected hname ih => exact .head (.unknown hname) ih
  | case3 name queue collected m hname hin ih => exact .head (.again hin) ih
  | case4 name queue collected m hname hout collected' ih => exact .head (.collects hname hout) ih

/-! ## Members that are equally far -/

/-- How far a member is: in how few steps it can be come to. -/
def Distance (members : Members) (names : List String) (n : String) (k : ℕ) : Prop :=
  IsLeast {j | Within members names j n} k

/-- The first in an order that declares a member. -/
def firstParent? (members : Members) (order : List String) (n : String) : Option String :=
  order.find? fun p => n ∈ declaredMembers members p

theorem Within.mono {j : ℕ} (h : Within members names j n) (hle : j ≤ k) :
    Within members names k n := by
  induction hle with
  | refl => exact h
  | step _ ih => exact Or.inl ih

theorem exists_distance (h : n ∈ needed members names) : ∃ k, Distance members names n k := by
  obtain ⟨m, hm, hmember, hpath⟩ := mem_needed_iff.1 h
  obtain ⟨k, hk⟩ : ∃ k, Within members names k n := by
    clear h
    induction hpath with
    | refl => exact ⟨0, hm, hmember⟩
    | tail _ hdeclares ih =>
      obtain ⟨k, hk⟩ := ih
      exact ⟨k + 1, Or.inr ⟨_, hk, hdeclares⟩⟩
  classical
  exact ⟨Nat.find ⟨k, hk⟩, Nat.find_spec ⟨k, hk⟩, fun j hj => Nat.find_min' ⟨k, hk⟩ hj⟩

theorem distance_zero_iff : Distance members names n 0 ↔ n ∈ names ∧ members.contains n :=
  ⟨fun h => h.1, fun h => ⟨h, fun _ _ => Nat.zero_le _⟩⟩

/-- What is farther than the names asked for is not among them. -/
theorem Distance.not_mem_start (h : Distance members names n (k + 1)) :
    n ∉ names.filter members.contains := by
  intro hn
  have hle : k + 1 ≤ 0 := h.2 (List.mem_filter.1 hn)
  omega

/-- **What is farther is declared one step nearer,** by the first that declares
it at all. -/
theorem Distance.exists_firstParent (h : Distance members names n (k + 1)) :
    ∃ p, firstParent? members (needed members names).toList n = some p ∧
      Distance members names p k := by
  obtain ⟨a, ha, hdeclares⟩ := h.1.resolve_left fun hn => by
    have hle : k + 1 ≤ k := h.2 hn
    omega
  cases hfirst : firstParent? members (needed members names).toList n with
  | none =>
    have hno := List.find?_eq_none.1 hfirst a ha.needed
    exact absurd (mem_declaredMembers.2 hdeclares) (by simpa using hno)
  | some p =>
    obtain ⟨hp, before, after, hlist, hbefore⟩ := List.find?_eq_some_iff_append.1 hfirst
    have hp : Declares members p n := mem_declaredMembers.1 (by simpa using hp)
    -- the first to declare it is no farther than any that does
    have hnear : Within members names k p := by
      have hmem : a ∈ (needed members names).toList := ha.needed
      rw [hlist, List.mem_append, List.mem_cons] at hmem
      rcases hmem with hmem | rfl | hmem
      · have hno := hbefore a hmem
        exact absurd (mem_declaredMembers.2 hdeclares) (by simpa using hno)
      · exact ha
      · refine ha.of_sublist ?_
        rw [hlist]
        exact List.Sublist.trans ((List.singleton_sublist.2 hmem).cons_cons p)
          (List.sublist_append_right ..)
    refine ⟨p, rfl, hnear, fun j hj => ?_⟩
    have hle : k + 1 ≤ j + 1 := h.2 (Or.inr ⟨p, hj, hp⟩)
    omega

/-- **Members are needed nearest first,** and in this order where they are
equally far. -/
structure ClosesBreadthFirst (members : Members) (names order : List String) : Prop where
  /-- The queue comes to an end, and to this order. -/
  ends : Acc (fun s' s => Turns members s s') (names.filter members.contains, .empty)
  reaches : ∃ collected, ReflTransGen (Turns members) (names.filter members.contains, .empty)
    ([], collected) ∧ order = collected.toList
  /-- It has the members that the names lead to, each once. -/
  nodup : order.Nodup
  mem_iff : ∀ n, n ∈ order ↔ ∃ m ∈ names, Needs members m n
  /-- Nothing stands before what is nearer. -/
  distance : ∀ n ∈ order, ∃ k, Distance members names n k
  nearest : order.Pairwise fun a b =>
    ∀ j k, Distance members names a j → Distance members names b k → j ≤ k
  /-- The names asked for stand as they were asked for. -/
  starts : ∀ a b, Distance members names a 0 → Distance members names b 0 →
    (order.idxOf a < order.idxOf b ↔ names.idxOf a < names.idxOf b)
  /-- All others stand as the first of the order that declare them do, and as
  these declare them. -/
  parent : ∀ n k, Distance members names n (k + 1) →
    ∃ p, firstParent? members order n = some p ∧ Distance members names p k
  ties : ∀ a b k p q, Distance members names a (k + 1) → Distance members names b (k + 1) →
    firstParent? members order a = some p → firstParent? members order b = some q →
    (order.idxOf a < order.idxOf b ↔ order.idxOf p < order.idxOf q ∨
      p = q ∧ (declaredMembers members p).idxOf a < (declaredMembers members p).idxOf b)

/-- **The members that names need are their breadth-first closure.** -/
theorem needed_closes (members : Members) (names : List String) :
    ClosesBreadthFirst members names (needed members names).toList := by
  have hneeded : ∀ n k, Distance members names n k → n ∈ names.filter members.contains ++
      (needed members names).toList.flatMap (declaredMembers members) := by
    intro n k h
    have hn : n ∈ needed members names := h.1.needed
    rwa [needed_eq, OrderedSet.mem_ofList] at hn
  -- members stand in the list as they first do in what it is made of
  have horder : ∀ a b j k, Distance members names a j → Distance members names b k →
      ((needed members names).toList.idxOf a < (needed members names).toList.idxOf b ↔
        (names.filter members.contains ++
          (needed members names).toList.flatMap (declaredMembers members)).idxOf a <
        (names.filter members.contains ++
          (needed members names).toList.flatMap (declaredMembers members)).idxOf b) := by
    intro a b j k ha hb
    rw [← OrderedSet.idxOf_ofList_lt_iff (hneeded a j ha) (hneeded b k hb), ← needed_eq]
  refine ⟨acc_turns members _, ⟨_, turns_collect members _ _, rfl⟩, (needed members names).nodup,
    fun n => mem_needed_iff, fun n hn => exists_distance hn, ?_, fun a b ha hb => ?_,
    fun n k h => h.exists_firstParent, fun a b k p q ha hb hp hq => ?_⟩
  · refine (needed_breadthFirst members names).nearest.imp ?_
    intro a b h j k ha hb
    exact ha.2 (h k hb.1)
  · have hstart : ∀ {n}, Distance members names n 0 → n ∈ names.filter members.contains :=
      fun h => List.mem_filter.2 (distance_zero_iff.1 h)
    rw [horder a b 0 0 ha hb, List.idxOf_append_of_mem (hstart ha),
      List.idxOf_append_of_mem (hstart hb)]
    exact idxOf_filter_lt_iff (distance_zero_iff.1 ha).2 (distance_zero_iff.1 hb).2
  · rw [horder a b _ _ ha hb, List.idxOf_append_of_notMem ha.not_mem_start,
      List.idxOf_append_of_notMem hb.not_mem_start, Nat.add_lt_add_iff_left]
    exact idxOf_flatMap_lt_iff hp hq

end DepBundle.Workspace
