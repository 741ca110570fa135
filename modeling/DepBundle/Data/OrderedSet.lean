/-!
# Data — sets that remember their order

A set of values kept in the order of first insertion. The order is part
of what such a set says: it decides the order of everything derived from
it.
-/

namespace DepBundle

/-- Distinct values in the order they were first inserted. -/
structure OrderedSet (α : Type) where
  /-- The values, oldest first. -/
  toList : List α
  /-- No value stands twice. -/
  nodup : toList.Nodup

namespace OrderedSet

variable {α : Type}

/-- The set without values. -/
def empty : OrderedSet α := ⟨[], List.nodup_nil⟩

instance : Inhabited (OrderedSet α) := ⟨empty⟩

instance : EmptyCollection (OrderedSet α) := ⟨empty⟩

instance : Membership α (OrderedSet α) := ⟨fun s a => a ∈ s.toList⟩

theorem ext_toList {s t : OrderedSet α} (h : s.toList = t.toList) : s = t := by
  cases s; cases t; cases h; rfl

instance [DecidableEq α] : DecidableEq (OrderedSet α) := fun s t =>
  if h : s.toList = t.toList then isTrue (ext_toList h)
  else isFalse fun e => h (e ▸ rfl)

variable [DecidableEq α]

instance (a : α) (s : OrderedSet α) : Decidable (a ∈ s) :=
  inferInstanceAs (Decidable (a ∈ s.toList))

/-- Whether a value is in the set. -/
def contains (s : OrderedSet α) (a : α) : Bool := decide (a ∈ s)

/-- Adds a value at the end, or nothing when it is there already. -/
def insert (s : OrderedSet α) (a : α) : OrderedSet α :=
  if h : a ∈ s.toList then s
  else ⟨s.toList ++ [a], by
    rw [List.nodup_append]
    refine ⟨s.nodup, by simp, fun x hx y hy => ?_⟩
    simp only [List.mem_singleton] at hy
    rintro rfl
    exact h (hy ▸ hx)⟩

theorem toList_insert (s : OrderedSet α) (a : α) :
    (s.insert a).toList = if a ∈ s.toList then s.toList else s.toList ++ [a] := by
  unfold insert; split <;> rfl

@[simp] theorem mem_insert {s : OrderedSet α} {a b : α} : b ∈ s.insert a ↔ b = a ∨ b ∈ s := by
  show b ∈ (s.insert a).toList ↔ b = a ∨ b ∈ s.toList
  rw [toList_insert]
  split
  · rename_i h
    constructor
    · exact Or.inr
    · rintro (rfl | hb)
      · exact h
      · exact hb
  · simp only [List.mem_append, List.mem_singleton]; exact Or.comm

/-- Adds the values of a list one after another. -/
def insertMany (s : OrderedSet α) (values : List α) : OrderedSet α :=
  values.foldl insert s

@[simp] theorem mem_insertMany {s : OrderedSet α} {values : List α} {b : α} :
    b ∈ s.insertMany values ↔ b ∈ values ∨ b ∈ s := by
  unfold insertMany
  induction values generalizing s with
  | nil => simp
  | cons a rest ih => rw [List.foldl_cons, ih, mem_insert]; simp only [List.mem_cons]; grind

/-- The distinct values of a list, each where it first stands. -/
def ofList (values : List α) : OrderedSet α := (empty : OrderedSet α).insertMany values

@[simp] theorem mem_ofList {values : List α} {b : α} : b ∈ ofList values ↔ b ∈ values := by
  unfold ofList
  rw [mem_insertMany]
  exact or_iff_left (show ¬ b ∈ ([] : List α) by simp)

/-- Whether there is no value. -/
def isEmpty (s : OrderedSet α) : Bool := s.toList.isEmpty

end OrderedSet

end DepBundle
