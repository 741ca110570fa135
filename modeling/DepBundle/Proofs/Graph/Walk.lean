import DepBundle.Graph.Linked
import Mathlib.Data.List.Nodup
import Mathlib.Logic.Relation
/-!
# Graphs — what a walk comes to

A walk is bounded in depth, and the bound is no restriction: where a list
holds everything the walk can come to, a walk as deep as the list is long
comes to exactly what can be reached from its starts
(`mem_postOrder`), is done with each node once (`nodup_postOrder`), and is
done with a node after what the node leads to, a cycle apart
(`ordered_postOrder`). `Walk.Goes` says what visiting does to a walk; the
three are read off it.
-/

namespace DepBundle.Graph

open Relation

variable {α : Type} {next : α → List α}

/-- One node leads to another. -/
def Leads (next : α → List α) (a b : α) : Prop := b ∈ next a

/-- A list that holds what its members lead to. -/
def Encloses (next : α → List α) (all : List α) : Prop :=
  ∀ a ∈ all, ∀ b ∈ next a, b ∈ all

/-- Each node of a list comes after what it leads to, or in a cycle with
it. `before` stands before the list. -/
def Ordered (next : α → List α) (before nodes : List α) : Prop :=
  ∀ pre x post, nodes = pre ++ x :: post → ∀ y ∈ next x,
    y ∈ before ++ pre ∨ ReflTransGen (Leads next) y x

namespace Ordered

variable {before nodes more : List α} {a : α}

theorem nil : Ordered next before [] := by
  intro pre x post h
  simp at h

theorem singleton
    (h : ∀ y ∈ next a, y ∈ before ∨ ReflTransGen (Leads next) y a) : Ordered next before [a] := by
  intro pre x post hnodes y hy
  obtain ⟨rfl, hax, -⟩ : pre = [] ∧ a = x ∧ post = [] := by
    cases pre <;> simp_all
  subst hax
  simpa using h y hy

theorem append (h : Ordered next before nodes) (hmore : Ordered next (before ++ nodes) more) :
    Ordered next before (nodes ++ more) := by
  intro pre x post hd y hy
  rcases List.append_eq_append_iff.1 hd with ⟨e, hpre, hmore'⟩ | ⟨e, hnodes, hpost⟩
  · rw [hpre, ← List.append_assoc]
    exact hmore e x post hmore' y hy
  · cases e with
    | nil =>
      rw [List.append_nil] at hnodes
      simpa [← hnodes] using hmore [] x post (by simpa using hpost.symm) y hy
    | cons x' e =>
      obtain ⟨rfl, -⟩ := List.cons.inj hpost
      exact h pre x e hnodes y hy

end Ordered

namespace Walk

/-- **What visiting does to a walk.** `starts` are the nodes visited on the
way from `w` to `w'`. What is new is done with, once, and was reached from
the starts; where all that the walk was in the middle of reaches the
starts, what is new is in order. -/
structure Goes (next : α → List α) (starts : List α) (w w' : Walk α) : Prop where
  seen : ∀ x ∈ w.seen, x ∈ w'.seen
  closed : ∀ x ∈ w'.seen, x ∉ w.seen → ∀ y ∈ next x, y ∈ w'.seen
  reached : ∀ x ∈ w'.seen, x ∉ w.seen → ∃ s ∈ starts, ReflTransGen (Leads next) s x
  done : ∃ d, w'.done = w.done ++ d ∧ d.Nodup ∧ (∀ x, x ∈ d ↔ x ∈ w'.seen ∧ x ∉ w.seen) ∧
    ((∀ y ∈ w.seen, y ∉ w.done → ∀ s ∈ starts, ReflTransGen (Leads next) y s) →
      Ordered next w.done d)

namespace Goes

variable {starts more : List α} {w w₁ w₂ : Walk α}

/-- Standing still. -/
theorem refl : Goes next starts w w where
  seen _ h := h
  closed _ h h' := absurd h h'
  reached _ h h' := absurd h h'
  done := ⟨[], by simp, List.nodup_nil, by simp, fun _ => Ordered.nil⟩

/-- Going on from where one has come to. -/
theorem trans (h₁ : Goes next starts w w₁) (h₂ : Goes next more w₁ w₂) :
    Goes next (starts ++ more) w w₂ := by
  obtain ⟨d₁, hd₁, hn₁, hm₁, ho₁⟩ := h₁.done
  obtain ⟨d₂, hd₂, hn₂, hm₂, ho₂⟩ := h₂.done
  refine ⟨fun x hx => h₂.seen x (h₁.seen x hx), fun x hx hxw y hy => ?_, fun x hx hxw => ?_,
    d₁ ++ d₂, ?_, ?_, fun x => ?_, fun hmid => ?_⟩
  · by_cases hx₁ : x ∈ w₁.seen
    · exact h₂.seen y (h₁.closed x hx₁ hxw y hy)
    · exact h₂.closed x hx hx₁ y hy
  · by_cases hx₁ : x ∈ w₁.seen
    · obtain ⟨s, hs, hsx⟩ := h₁.reached x hx₁ hxw
      exact ⟨s, List.mem_append_left _ hs, hsx⟩
    · obtain ⟨s, hs, hsx⟩ := h₂.reached x hx hx₁
      exact ⟨s, List.mem_append_right _ hs, hsx⟩
  · rw [hd₂, hd₁, List.append_assoc]
  · refine hn₁.append hn₂ fun x hx₁ hx₂ => ?_
    exact ((hm₂ x).1 hx₂).2 ((hm₁ x).1 hx₁).1
  · rw [List.mem_append, hm₁, hm₂]
    constructor
    · rintro (⟨hx, hxw⟩ | ⟨hx, hxw⟩)
      · exact ⟨h₂.seen x hx, hxw⟩
      · exact ⟨hx, fun h => hxw (h₁.seen x h)⟩
    · rintro ⟨hx, hxw⟩
      by_cases hx₁ : x ∈ w₁.seen
      · exact Or.inl ⟨hx₁, hxw⟩
      · exact Or.inr ⟨hx, hx₁⟩
  · refine (ho₁ fun y hy hyd s hs => hmid y hy hyd s (List.mem_append_left _ hs)).append ?_
    rw [← hd₁]
    refine ho₂ fun y hy hyd s hs => ?_
    -- what the walk is in the middle of at `w₁`, it was in the middle of at `w`
    rw [hd₁, List.mem_append, not_or] at hyd
    have hyw : y ∈ w.seen := by
      by_contra hyw
      exact hyd.2 ((hm₁ y).2 ⟨hy, hyw⟩)
    exact hmid y hyw hyd.1 s (List.mem_append_right _ hs)

/-- **Visiting a node.** The walk comes to it, visits what it leads to and
is then done with it. -/
theorem push {a : α} (ha : a ∉ w.seen)
    (h : Goes next (next a) { w with seen := a :: w.seen } w₁) (hnext : ∀ b ∈ next a, b ∈ w₁.seen) :
    Goes next [a] w { w₁ with done := w₁.done ++ [a] } := by
  obtain ⟨d, hd, hn, hm, ho⟩ := h.done
  simp only [List.mem_cons, not_or] at hm ho
  have haw₁ : a ∈ w₁.seen := h.seen a (List.mem_cons_self ..)
  refine ⟨fun x hx => h.seen x (List.mem_cons_of_mem _ hx), fun x hx hxw y hy => ?_,
    fun x hx hxw => ⟨a, List.mem_singleton_self a, ?_⟩, d ++ [a], ?_, ?_, fun x => ?_,
    fun hmid => ?_⟩
  · by_cases hxa : x = a
    · exact hnext y (hxa ▸ hy)
    · exact h.closed x hx (by simp [hxa, hxw]) y hy
  · by_cases hxa : x = a
    · rw [hxa]
    · obtain ⟨s, hs, hsx⟩ := h.reached x hx (by simp [hxa, hxw])
      exact ReflTransGen.head hs hsx
  · rw [hd, List.append_assoc]
  · refine hn.append (List.nodup_singleton a) fun x hx hxa => ?_
    exact ((hm x).1 hx).2.1 (List.mem_singleton.1 hxa)
  · rw [List.mem_append, hm, List.mem_singleton]
    constructor
    · rintro (⟨hx, -, hxw⟩ | rfl)
      · exact ⟨hx, hxw⟩
      · exact ⟨haw₁, ha⟩
    · rintro ⟨hx, hxw⟩
      by_cases hxa : x = a
      · exact Or.inr hxa
      · exact Or.inl ⟨hx, hxa, hxw⟩
  · refine (ho ?_).append (Ordered.singleton fun y hy => ?_)
    · -- the walk is in the middle of `a` too while it visits what `a` leads to
      rintro y (rfl | hyw) hyd s hs
      · exact ReflTransGen.single hs
      · exact (hmid y hyw hyd a (List.mem_singleton_self a)).tail hs
    · have hyw₁ := hnext y hy
      by_cases hya : y = a
      · exact Or.inr (hya ▸ ReflTransGen.refl)
      by_cases hyw : y ∈ w.seen
      · by_cases hyd : y ∈ w.done
        · exact Or.inl (List.mem_append_left _ hyd)
        · exact Or.inr (hmid y hyw hyd a (List.mem_singleton_self a))
      · exact Or.inl (List.mem_append_right _ ((hm y).2 ⟨hyw₁, hya, hyw⟩))

end Goes

/-! ## How deep a walk has to be -/

variable [DecidableEq α] {all : List α} {w w' : Walk α}

/-- How many nodes of a list a walk has yet to come to. -/
def ahead (all : List α) (w : Walk α) : ℕ := all.countP (· ∉ w.seen)

theorem ahead_le_of_seen (h : ∀ x ∈ w.seen, x ∈ w'.seen) : ahead all w' ≤ ahead all w := by
  refine List.countP_mono_left fun x _ hx => ?_
  simp only [decide_eq_true_eq] at hx ⊢
  exact fun hxw => hx (h x hxw)

theorem ahead_cons_lt {a : α} (ha : a ∈ all) (haw : a ∉ w.seen) :
    ahead all { w with seen := a :: w.seen } < ahead all w := by
  obtain ⟨l, r, rfl⟩ := List.append_of_mem ha
  have hl := List.countP_mono_left (l := l) (p := fun x => decide (x ∉ a :: w.seen))
    (q := fun x => decide (x ∉ w.seen)) fun x _ hx => by simp_all
  have hr := List.countP_mono_left (l := r) (p := fun x => decide (x ∉ a :: w.seen))
    (q := fun x => decide (x ∉ w.seen)) fun x _ hx => by simp_all
  simp only [ahead, List.countP_append, List.countP_cons] at hl hr ⊢
  simp only [List.mem_cons_self, not_true_eq_false, decide_false, haw, not_false_eq_true,
    decide_true, if_true, Bool.false_eq_true, if_false]
  omega

/-- Visiting the nodes of a list one after another, where visiting one is
understood. -/
theorem goes_foldl {visit : Walk α → α → Walk α} {n : ℕ} {l : List α} (hl : ∀ a ∈ l, a ∈ all)
    (hvisit : ∀ w, ∀ a ∈ all, ahead all w ≤ n →
      Goes next [a] w (visit w a) ∧ a ∈ (visit w a).seen) :
    ∀ w, ahead all w ≤ n →
      Goes next l w (l.foldl visit w) ∧ ∀ a ∈ l, a ∈ (l.foldl visit w).seen := by
  induction l with
  | nil => exact fun w _ => ⟨Goes.refl, by simp⟩
  | cons a l ih =>
    intro w hw
    obtain ⟨hgoes, hseen⟩ := hvisit w a (hl a (List.mem_cons_self ..)) hw
    obtain ⟨hgoes', hseen'⟩ := ih (fun b hb => hl b (List.mem_cons_of_mem _ hb)) (visit w a)
      (Nat.le_trans (ahead_le_of_seen hgoes.seen) hw)
    refine ⟨hgoes.trans hgoes', fun b hb => ?_⟩
    rcases List.mem_cons.1 hb with rfl | hb
    · exact hgoes'.seen b hseen
    · exact hseen' b hb

/-- **Visiting, as deep as there are nodes ahead.** -/
theorem goes_visit (hall : Encloses next all) :
    ∀ n w, ∀ a ∈ all, ahead all w ≤ n →
      Goes next [a] w (visit next n w a) ∧ a ∈ (visit next n w a).seen := by
  intro n
  induction n with
  | zero =>
    intro w a ha hw
    -- no depth is left only where there is nothing left to come to
    have haw : a ∈ w.seen := by
      by_contra haw
      have := ahead_cons_lt ha haw
      omega
    exact ⟨Goes.refl, haw⟩
  | succ n ih =>
    intro w a ha hw
    rw [visit]
    split
    · rename_i haw
      exact ⟨Goes.refl, haw⟩
    · rename_i haw
      have hlt := ahead_cons_lt ha haw
      obtain ⟨hgoes, hseen⟩ := goes_foldl (hall a ha) ih { w with seen := a :: w.seen } (by omega)
      exact ⟨hgoes.push haw hseen, hgoes.seen a (List.mem_cons_self ..)⟩

end Walk

/-! ## What a walk is done with -/

variable [DecidableEq α] {all starts : List α} {size : ℕ}

/-- The walk as a whole: it goes from nowhere to its end, and comes to its
starts. -/
theorem goes_postOrder (hall : Encloses next all) (hsize : all.length ≤ size)
    (hstarts : ∀ a ∈ starts, a ∈ all) :
    Walk.Goes next starts {} (starts.foldl (Walk.visit next size) {}) ∧
      ∀ a ∈ starts, a ∈ (starts.foldl (Walk.visit next size) {}).seen :=
  Walk.goes_foldl hstarts (Walk.goes_visit hall size) {}
    (Nat.le_trans List.countP_le_length hsize)

/-- **A walk is done with exactly what its starts reach.** -/
theorem mem_postOrder (hall : Encloses next all) (hsize : all.length ≤ size)
    (hstarts : ∀ a ∈ starts, a ∈ all) {x : α} :
    x ∈ postOrder next size starts ↔ ∃ s ∈ starts, ReflTransGen (Leads next) s x := by
  obtain ⟨hgoes, hseen⟩ := goes_postOrder hall hsize hstarts
  obtain ⟨d, hd, -, hm, -⟩ := hgoes.done
  rw [postOrder, hd, List.nil_append, hm]
  constructor
  · rintro ⟨hx, -⟩
    exact hgoes.reached x hx (by simp)
  · rintro ⟨s, hs, hsx⟩
    refine ⟨?_, by simp⟩
    clear hm
    induction hsx with
    | refl => exact hseen s hs
    | tail _ hbc ih => exact hgoes.closed _ ih (by simp) _ hbc

/-- **A walk is done with each node once.** -/
theorem nodup_postOrder (hall : Encloses next all) (hsize : all.length ≤ size)
    (hstarts : ∀ a ∈ starts, a ∈ all) : (postOrder next size starts).Nodup := by
  obtain ⟨d, hd, hn, -, -⟩ := (goes_postOrder hall hsize hstarts).1.done
  rw [postOrder, hd, List.nil_append]
  exact hn

/-- **A walk is done with a node after what the node leads to**, unless
that leads back. -/
theorem ordered_postOrder (hall : Encloses next all) (hsize : all.length ≤ size)
    (hstarts : ∀ a ∈ starts, a ∈ all) : Ordered next [] (postOrder next size starts) := by
  obtain ⟨d, hd, -, -, ho⟩ := (goes_postOrder hall hsize hstarts).1.done
  rw [postOrder, hd, List.nil_append]
  exact ho (by simp)

/-- A walk ends each visit of a node it has not come to with the node itself. -/
theorem Walk.exists_done_visit {n : ℕ} {w : Walk α} {a : α} (ha : a ∉ w.seen) :
    ∃ before, (Walk.visit next (n + 1) w a).done = before ++ [a] := by
  rw [Walk.visit, if_neg ha]
  exact ⟨_, rfl⟩

/-- **A walk is done with all that a start reaches once it is done with the
start**, where nothing leads back there: by then it is in the middle of
nothing else. -/
theorem exists_postOrder_eq {a : α} (hall : Encloses next all) (hsize : all.length ≤ size)
    (hstarts : ∀ b ∈ starts, b ∈ all) (ha : a ∈ starts) (hnone : ∀ b, ¬ Leads next b a) :
    ∃ before after, postOrder next size starts = before ++ a :: after ∧
      ∀ x, ReflTransGen (Leads next) a x → x ∈ before ++ [a] := by
  obtain ⟨s₁, s₂, rfl, hfirst⟩ := List.eq_append_cons_of_mem ha
  have haall := hstarts a ha
  have hahead : ∀ w, Walk.ahead all w ≤ size := fun _ => Nat.le_trans List.countP_le_length hsize
  obtain ⟨n, rfl⟩ : ∃ n, size = n + 1 :=
    Nat.exists_eq_add_one.2 (Nat.lt_of_lt_of_le (List.length_pos_of_mem haall) hsize)
  have hvisit := Walk.goes_visit hall (n + 1)
  -- the walk comes to `a` first when it is visited as a start
  obtain ⟨hgoes₁, -⟩ := Walk.goes_foldl (fun b hb => hstarts b (List.mem_append_left _ hb)) hvisit
    {} (hahead _)
  rw [postOrder, List.foldl_append, List.foldl_cons]
  generalize s₁.foldl (Walk.visit next (n + 1)) {} = w₁ at hgoes₁ ⊢
  have hnew : a ∉ w₁.seen := by
    intro hseen
    obtain ⟨s, hs, hsa⟩ := hgoes₁.reached a hseen List.not_mem_nil
    rcases ReflTransGen.cases_tail hsa with rfl | ⟨b, -, hba⟩
    · exact hfirst hs
    · exact hnone b hba
  obtain ⟨hgoes₂, hseen⟩ := hvisit w₁ a haall (hahead w₁)
  obtain ⟨before, hbefore⟩ := Walk.exists_done_visit (n := n) hnew
  generalize Walk.visit next (n + 1) w₁ a = w₂ at hgoes₂ hseen hbefore ⊢
  -- what was come to by then leads to nothing that was not
  have hgoes := hgoes₁.trans hgoes₂
  obtain ⟨d, hd, -, hm, -⟩ := hgoes.done
  rw [List.nil_append, hbefore] at hd
  have hdone : ∀ x, ReflTransGen (Leads next) a x → x ∈ before ++ [a] := by
    intro x hax
    rw [hd, hm]
    refine ⟨?_, List.not_mem_nil⟩
    clear hm
    induction hax with
    | refl => exact hseen
    | tail _ hxy ih => exact hgoes.closed _ ih List.not_mem_nil _ hxy
  obtain ⟨after, hafter, -⟩ := (Walk.goes_foldl
    (fun b hb => hstarts b (List.mem_append_right _ (List.mem_cons_of_mem _ hb))) hvisit w₂
    (hahead w₂)).1.done
  exact ⟨before, after, by rw [hafter, hbefore, List.append_assoc, List.singleton_append], hdone⟩

end DepBundle.Graph
