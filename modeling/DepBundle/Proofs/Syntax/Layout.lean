import DepBundle.Syntax.Scope
import DepBundle.Text.Segment
import Mathlib.Data.List.Basic
/-!
# Syntax — how a tree lies in its text

A subtree is smaller than the tree it is in
(`Shape.sizeOf_lt_of_mem_children`), so what holds of a tree where it holds
of the subtrees right below holds of every tree; and what one step of `para`
keeps, `para` keeps (`Node.para_induction`).

Every tree stands inside the one it is part of, and the trees right below one
stand one after another (`Node.Lies`). Decorators are the exception: those of a
class that is exported may stand before the `export`, so a tree begins with what
is carried in front of it (`Node.begins`). What is said beyond the stretches is
what a text without types has to show for its trees (`Node.Sits`).
-/

namespace DepBundle.Syntax

variable {β : Type}

theorem Shape.sizeOf_lt_of_mem_children {c : Node} {shape : Shape Node} (h : c ∈ shape.children) :
    sizeOf c < sizeOf shape := by
  have hlist : ∀ l : List Node, c ∈ l → sizeOf c < sizeOf l := fun _ hl => List.sizeOf_lt_of_mem hl
  have hoption : ∀ o : Option Node, o = some c → sizeOf c < sizeOf o := by
    rintro _ rfl
    simp
  cases shape <;>
    simp only [children, List.mem_append, List.mem_cons, List.not_mem_nil, or_false,
      Option.mem_toList] at h
  all_goals
    simp
    grind

/-- What is computed beside the subtrees leaves them alone. -/
theorem Shape.map_map_fst (shape : Shape Node) (f : Node → β) :
    (shape.map fun n => (n, f n)).map (·.1) = shape := by
  cases shape <;> simp [map, Function.comp_def]

namespace Node

/-- **Induction along a tree.** -/
theorem children_induction {P : Node → Prop}
    (h : ∀ span shape, (∀ c ∈ shape.children, P c) → P (mk span shape)) (node : Node) : P node := by
  induction hsize : sizeOf node using Nat.strongRecOn generalizing node with
  | ind size ih =>
    obtain ⟨span, shape⟩ := node
    refine h span shape fun c hc => ih (sizeOf c) ?_ c rfl
    have hlt := Shape.sizeOf_lt_of_mem_children hc
    rw [mk.sizeOf_spec] at hsize
    omega

/-- **What one step keeps, computing along a tree keeps.** The step may count
on it for the subtrees. -/
theorem para_induction {Q : β → Prop} {step : Span → Shape (Node × β) → β}
    (h : ∀ span shape, (∀ below ∈ shape.children, Q below.2) → Q (step span shape))
    (node : Node) : Q (node.para step) := by
  induction node using children_induction with
  | h span shape ih =>
    rw [para_mk]
    refine h span _ fun below hbelow => ?_
    rw [Shape.children_map, List.mem_map] at hbelow
    obtain ⟨c, hc, rfl⟩ := hbelow
    exact ih c hc

end Node

/-! ## Where trees stand -/

variable {source : List Char} {node c d : Node} {span : Span} {shape : Shape Node}

/-- Whether a shape may have something carried in front of it. -/
def Shape.carries {α : Type} : Shape α → Bool
  | .classDef _ _ _ _ _ _ _ | .exportDecl _ | .exportDefault _ => true
  | _ => false

namespace Node

/-- The decorators of a class. -/
def decorators (node : Node) : List Node :=
  match node.shape with
  | .classDef _ decorators _ _ _ _ _ => decorators
  | _ => []

/-- The decorators that may stand in front of a tree: those of a class, also where
it is exported. -/
def carried (node : Node) : List Node :=
  match node.shape with
  | .exportDecl declaration | .exportDefault declaration => declaration.decorators
  | _ => node.decorators

/-- Where a tree begins, with what is carried in front of it. -/
def begins (node : Node) : ℕ :=
  (node.carried.map fun c => c.span.start).foldr min node.span.start

/-- Where the keyword of a class ends that a tree opens with, and otherwise where
it stands. -/
def opening (source : List Char) (node : Node) : ℕ :=
  match node.shape with
  | .classDef _ _ _ _ _ _ _ =>
    if (Text.after? "class".toList (source.drop node.span.start)).isSome then node.span.start + 5
    else node.span.start
  | _ => node.span.start

/-- Whether a tree names something in an export clause that can be referred
to. -/
def NamesReference (node : Node) : Prop :=
  ∃ typeOnly span name exported, node.shape = .exportNamed typeOnly ⟨span, .reference name⟩ exported

/-- Whether a tree declares a name. -/
def IsBinding (node : Node) : Prop := ∃ name, node.shape = .binding name

/-- **What a tree shows for itself:** a name has a character, what an import binds
is a name, functions and calls have no types and no types are declared, and an
export clause only names what can be referred to. What an export carries stands in
front of it or after the keyword of what it exports. -/
def Sits (source : List Char) (span : Span) : Shape Node → Prop
  | .reference _ | .word _ => span.start < span.stop
  | .function _ _ types params _ _ => types = none ∧ params.begins = params.span.start
  | .call _ _ types _ => types = none
  | .typeDecl _ _ => False
  | .importDefault target | .importAll target | .importNamed _ _ target => target.IsBinding
  | .exportNames _ items => ∀ item ∈ items, item.NamesReference
  | .exportDecl value | .exportDefault value =>
    span.start ≤ value.span.start ∧ value.opening source ≤ value.span.stop ∧
      ∀ c ∈ value.children, c.span.stop ≤ span.start ∨ value.opening source ≤ c.begins
  | _ => True

/-- How a tree of some shape stands in its text, by the trees right below. -/
structure Stands (source : List Char) (span : Span) (shape : Shape Node) : Prop where
  /-- It ends where it begins or later. -/
  ordered : span.start ≤ span.stop
  /-- The trees right below stand one after another. -/
  row : shape.children.Pairwise fun c d => c.span.stop ≤ d.begins
  /-- They stand inside it. -/
  inside : ∀ c ∈ shape.children, (Node.mk span shape).begins ≤ c.begins ∧
    c.span.stop ≤ span.stop
  sits : Sits source span shape

/-- **How a tree lies in its text:** every tree in it stands as it has to. -/
inductive Lies (source : List Char) : Node → Prop where
  | mk {span : Span} {shape : Shape Node} (stands : Stands source span shape)
      (below : ∀ c ∈ shape.children, Lies source c) : Lies source (.mk span shape)

theorem foldr_min_le (starts : List ℕ) (n : ℕ) :
    starts.foldr min n ≤ n ∧ ∀ start ∈ starts, starts.foldr min n ≤ start := by
  induction starts with
  | nil => exact ⟨Nat.le_refl n, by simp⟩
  | cons start starts ih =>
    rw [List.foldr_cons]
    refine ⟨by omega, fun other hother => ?_⟩
    rcases List.mem_cons.1 hother with rfl | hother
    · omega
    · have hle := ih.2 other hother
      omega

theorem begins_le_start (node : Node) : node.begins ≤ node.span.start := (foldr_min_le _ _).1

theorem begins_le_of_mem_carried (h : c ∈ node.carried) : node.begins ≤ c.span.start :=
  (foldr_min_le _ _).2 _ (List.mem_map_of_mem h)

theorem mem_carried_of_mem_decorators (h : c ∈ node.decorators) : c ∈ node.carried := by
  unfold carried
  split
  all_goals first
    | exact h
    | rename_i heq
      rw [decorators, heq] at h
      cases h

theorem le_begins {n : ℕ} (hstart : n ≤ node.span.start)
    (h : ∀ c ∈ node.carried, n ≤ c.span.start) :
    n ≤ node.begins := by
  unfold begins
  generalize node.carried = carried at h
  induction carried with
  | nil => exact hstart
  | cons c cs ih =>
    have hc := h c (List.mem_cons_self ..)
    have hcs := ih fun d hd => h d (List.mem_cons_of_mem _ hd)
    rw [List.map_cons, List.foldr_cons]
    omega

/-- Where nothing is carried in front of it, a tree begins where it stands. -/
theorem begins_of_carried (h : node.carried = []) : node.begins = node.span.start := by
  rw [begins, h]
  rfl

theorem start_le_opening (source : List Char) (node : Node) :
    node.span.start ≤ node.opening source := by
  unfold opening
  split
  · split <;> omega
  · exact Nat.le_refl _

theorem opening_le (source : List Char) (node : Node) :
    node.opening source ≤ node.span.start + 5 := by
  unfold opening
  split
  · split <;> omega
  · omega

/-- What does not begin with the keyword opens where it stands. -/
theorem opening_of_none (h : Text.after? "class".toList (source.drop node.span.start) = none) :
    node.opening source = node.span.start := by
  unfold opening
  split
  · rw [h]
    rfl
  · rfl

theorem begins_of_not_carries (h : node.shape.carries = false) : node.begins = node.span.start := by
  refine begins_of_carried ?_
  unfold carried decorators
  split
  all_goals first | (rename_i heq; rw [heq] at h; cases h) | skip
  split
  · rename_i heq
    rw [heq] at h
    cases h
  · rfl

theorem opening_of_not_carries (h : node.shape.carries = false) :
    node.opening source = node.span.start := by
  unfold opening
  split
  · rename_i heq
    rw [heq] at h
    cases h
  · rfl

namespace Lies

theorem stands (h : Lies source node) : Stands source node.span node.shape := by
  cases h with
  | mk stands => exact stands

theorem child (h : Lies source node) (hc : c ∈ node.children) : Lies source c := by
  cases h with
  | mk _ below => exact below c hc

theorem inside (h : Lies source node) (hc : c ∈ node.children) :
    node.begins ≤ c.begins ∧ c.span.stop ≤ node.span.stop :=
  h.stands.inside c hc

end Lies

end Node

end DepBundle.Syntax
