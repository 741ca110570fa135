import DepBundle.Data.OrderedMap
import DepBundle.Data.OrderedSet
import DepBundle.Path.Basic
/-!
# Workspaces — members and what they need

A workspace is a map from package names to the packages developed in it.
What a member needs of the workspace is what can be reached from it
through declared dependencies that are members themselves.
-/

namespace DepBundle.Workspace

/-- A package developed in the workspace. -/
structure Member where
  location : Path
  /-- Every dependency it declares; `none` where it declares none. -/
  dependencies : Option (OrderedMap String String) := none
  version : Option String := none

/-- The packages of a workspace, in the order they were discovered. -/
abbrev Members := OrderedMap String Member

/-- The names a member declares, in order. -/
def Member.declared (m : Member) : List String :=
  match m.dependencies with
  | some dependencies => dependencies.keys
  | none => []

/-- The members not yet collected. -/
def remaining (members : Members) (collected : OrderedSet String) : List String :=
  members.keys.filter fun name => !collected.contains name

theorem length_remaining_insert_lt {members : Members} {collected : OrderedSet String}
    {name : String} {m : Member} (hm : members.get? name = some m)
    (hn : name ∉ collected.toList) :
    (remaining members (collected.insert name)).length < (remaining members collected).length := by
  unfold remaining
  have hmem := OrderedMap.mem_keys_of_get? hm
  have hsub : (members.keys.filter fun x => !(collected.insert name).contains x)
      = (members.keys.filter fun x => !collected.contains x).filter (· ≠ name) := by
    rw [List.filter_filter]
    refine List.filter_congr fun x _ => ?_
    simp only [OrderedSet.contains, OrderedSet.mem_insert]
    by_cases hx : x = name <;> simp [hx]
  rw [hsub]
  refine List.length_filter_lt_length_iff_exists.2 ⟨name, ?_, by simp⟩
  rw [List.mem_filter]
  refine ⟨hmem, ?_⟩
  have : ¬ name ∈ collected := hn
  simp [OrderedSet.contains, this]

/-- Collects what waits in a queue and whatever it leads to, first come
first served. -/
def collect (members : Members) : (queue : List String) → OrderedSet String → OrderedSet String
  | [], collected => collected
  | name :: queue, collected =>
    match _hm : members.get? name with
    | none => collect members queue collected
    | some m =>
      if _hn : name ∈ collected.toList then collect members queue collected
      else
        let collected := collected.insert name
        collect members
          (queue ++ m.declared.filter fun d => members.contains d && !collected.contains d)
          collected
termination_by queue collected => ((remaining members collected).length, queue.length)
decreasing_by
  · simp [Prod.lex_def]
  · simp [Prod.lex_def]
  · exact Prod.Lex.left _ _ (length_remaining_insert_lt _hm _hn)

/-- The members that `names` need, themselves included, nearest first.
Names that are no members are passed over. -/
def needed (members : Members) (names : List String) : OrderedSet String :=
  collect members (names.filter members.contains) .empty

end DepBundle.Workspace
