import DepBundle.Proofs.Chunk.Links
/-!
# Chunks — registries at run time

The tables that a chunk writes out are objects of the host, and what is
found in them is decided by its rules: a member named `__proto__` sets the
prototype of the object it stands in and is none of its properties, and a
plain object answers to names it does not have itself.

The registry of a chunk takes in those it imports. Imports lead upwards, so
one registry for each chunk fits this (`evaluates_registries`), and any
that does finds the record of a module under its key in each chunk that
holds the module or imports the one that does (`registry_eq`).
-/

namespace DepBundle.ChunkGraph

open Relation DepBundle.Graph

/-! ## Objects -/

/-- The member of an object written out that sets its prototype. -/
def prototypeName : String := "__proto__"

/-- The names that a plain object answers to without having them itself. -/
def inheritedNames : List String :=
  [prototypeName, "__defineGetter__", "__defineSetter__", "__lookupGetter__", "__lookupSetter__",
    "constructor", "hasOwnProperty", "isPrototypeOf", "propertyIsEnumerable", "toLocaleString",
    "toString", "valueOf"]

section

variable {α : Type} {members : List (String × α)} {name : String} {a : α}

/-- The property that an object has itself, given the members it is written
out with: the last of the name counts. -/
def ownProperty (members : List (String × α)) (name : String) : Option α :=
  if name = prototypeName then none else members.reverse.lookup name

/-- What reading a property of a plain object comes to. -/
inductive Reading (α : Type) where
  | own (value : α)
  /-- Something that every plain object answers with. -/
  | inherited
  | missing

/-- Reading a property of an object written out. No member is an object
itself, so none becomes its prototype. -/
def readPlain (members : List (String × α)) (name : String) : Reading α :=
  match ownProperty members name with
  | some value => .own value
  | none => if name ∈ inheritedNames then .inherited else .missing

theorem mem_of_ownProperty (h : ownProperty members name = some a) :
    (name, a) ∈ members ∧ name ≠ prototypeName := by
  rw [ownProperty] at h
  split at h
  · exact absurd h (by simp)
  · rename_i hne
    obtain ⟨before, after, hsplit, -⟩ := List.lookup_eq_some_iff.1 h
    refine ⟨List.mem_reverse.1 ?_, hne⟩
    rw [hsplit]
    exact List.mem_append_right _ (List.mem_cons_self ..)

theorem isSome_ownProperty (h : (name, a) ∈ members) (hne : name ≠ prototypeName) :
    (ownProperty members name).isSome := by
  rw [ownProperty, if_neg hne, Option.isSome_iff_ne_none]
  intro hnone
  have := List.lookup_eq_none_iff.1 hnone (name, a) (List.mem_reverse.2 h)
  simp at this

/-- **A member counts unless it is named like the prototype,** where others
of its name say the same. -/
theorem ownProperty_eq (h : (name, a) ∈ members)
    (hsame : ∀ a', (name, a') ∈ members → a' = a) :
    ownProperty members name = if name = prototypeName then none else some a := by
  by_cases hne : name = prototypeName
  · rw [ownProperty, if_pos hne, if_pos hne]
  · obtain ⟨a', ha'⟩ := Option.isSome_iff_exists.1 (isSome_ownProperty h hne)
    rw [ha', if_neg hne, hsame a' (mem_of_ownProperty ha').1]

end

/-! ## Registries -/

/-- The records of a registry by their keys. A record is known by the chunk
that makes it and the module that it is of. -/
abbrev Registry := String → Option (ℕ × String)

/-- The object without prototype that takes in the properties of others,
the later over the earlier. -/
def assign (sources : List Registry) : Registry := fun key => sources.reverse.findSome? (· key)

theorem exists_of_assign {sources : List Registry} {key : String} {record : ℕ × String}
    (h : assign sources key = some record) : ∃ source ∈ sources, source key = some record := by
  obtain ⟨source, hsource, hkey⟩ := List.exists_of_findSome?_eq_some h
  exact ⟨source, List.mem_reverse.1 hsource, hkey⟩

theorem isSome_assign {sources : List Registry} {source : Registry} {key : String}
    (h : source ∈ sources) (hkey : (source key).isSome) : (assign sources key).isSome := by
  rw [assign, List.findSome?_isSome_iff]
  exact ⟨source, List.mem_reverse.2 h, hkey⟩

/-- The members that the registry of a chunk is written out with. -/
def ownMembers (s : ChunkGraph) (n : ℕ) (c : Chunk) : List (String × ℕ × String) :=
  c.modules.filterMap fun id => (s.graph.bundled? id).map fun m => (m.key, n, id)

/-- The registry of a chunk, given those it imports. -/
def merged (s : ChunkGraph) (n : ℕ) (c : Chunk) (imported : List Registry) : Registry :=
  assign (imported ++ [ownProperty (s.ownMembers n c)])

/-- **What it is for registries to be those of the chunks:** each is made
from those that its chunk imports. -/
def Evaluates (s : ChunkGraph) (R : ℕ → Registry) : Prop :=
  ∀ n c, s.chunks[n]? = some c → R n = s.merged n c ((s.linksOf n c).chunks.toList.map R)

variable {g : Graph} {inlined : Bool} {n k : ℕ} {c c' : Chunk} {R : ℕ → Registry}

theorem mem_ownMembers {s : ChunkGraph} {key id : String} :
    (key, k, id) ∈ s.ownMembers n c ↔
      k = n ∧ id ∈ c.modules ∧ ∃ m, s.graph.bundled? id = some m ∧ m.key = key := by
  simp only [ownMembers, List.mem_filterMap, Option.map_eq_some_iff, Prod.mk.injEq]
  constructor
  · rintro ⟨id', hid, m, hm, rfl, rfl, rfl⟩
    exact ⟨rfl, hid, m, hm, rfl⟩
  · rintro ⟨rfl, hid, m, hm, rfl⟩
    exact ⟨id, hid, m, hm, rfl, rfl, rfl⟩

/-- How many entries a chunk does not stand for; it goes down along
imports. -/
def vacanciesOf (g : Graph) (inlined : Bool) (n : ℕ) : ℕ :=
  ((split g.link inlined).chunks[n]?.map fun c => c.bits.vacancies).getD 0

theorem vacanciesOf_lt (hn : (split g.link inlined).chunks[n]? = some c)
    (hk : k ∈ ((split g.link inlined).linksOf n c).chunks) :
    vacanciesOf g inlined k < vacanciesOf g inlined n := by
  obtain ⟨c', hk', -, hlt⟩ := bits_ssubset_of_mem_links hn hk
  simpa [vacanciesOf, hn, hk'] using hlt

/-- The registries of the chunks of a program. -/
def registries (g : Graph) (inlined : Bool) (n : ℕ) : Registry :=
  match _hn : (split g.link inlined).chunks[n]? with
  | none => fun _ => none
  | some c => (split g.link inlined).merged n c
      (((split g.link inlined).linksOf n c).chunks.toList.attach.map fun k =>
        registries g inlined k.1)
termination_by vacanciesOf g inlined n
decreasing_by exact vacanciesOf_lt _hn k.2

/-- **The chunks of a program have registries.** -/
theorem evaluates_registries (g : Graph) (inlined : Bool) :
    Evaluates (split g.link inlined) (registries g inlined) := by
  intro n c hn
  rw [registries]
  split
  · rename_i hnone
    rw [hn] at hnone
    exact absurd hnone (by simp)
  · rename_i c' hn'
    rw [hn, Option.some_inj] at hn'
    subst hn'
    rw [List.attach_map_val]

/-! ## What is found in a registry -/

/-- **A registry has only records of the output,** each under its key and
made where the module is. -/
theorem exists_module_of_registry (hR : Evaluates (split g.link inlined) R)
    (hn : (split g.link inlined).chunks[n]? = some c) {key id : String}
    (h : R n key = some (k, id)) : key ≠ prototypeName ∧ ∃ c' m,
      (split g.link inlined).chunks[k]? = some c' ∧ id ∈ c'.modules ∧
        g.bundled? id = some m ∧ m.key = key := by
  -- what is imported was found there, in a chunk of more entries
  induction hlt : vacanciesOf g inlined n using Nat.strong_induction_on generalizing n c with
  | _ _ ih =>
    rw [hR n c hn, merged] at h
    obtain ⟨source, hsource, hkey⟩ := exists_of_assign h
    rcases List.mem_append.1 hsource with hsource | hsource
    · obtain ⟨other, hother, rfl⟩ := List.mem_map.1 hsource
      obtain ⟨d, hd, -⟩ := bits_ssubset_of_mem_links hn hother
      exact ih _ (hlt ▸ vacanciesOf_lt hn hother) hd hkey rfl
    · rw [List.mem_singleton.1 hsource] at hkey
      obtain ⟨hmem, hne⟩ := mem_of_ownProperty hkey
      obtain ⟨rfl, hid, m, hm, hmkey⟩ := mem_ownMembers.1 hmem
      exact ⟨hne, c, m, hn, hid, hm, hmkey⟩

/-- No registry has a record under the name of the prototype. -/
theorem registry_prototypeName (hR : Evaluates (split g.link inlined) R)
    (hn : (split g.link inlined).chunks[n]? = some c) : R n prototypeName = none := by
  rw [Option.eq_none_iff_forall_ne_some]
  rintro ⟨k, id⟩ h
  exact (exists_module_of_registry hR hn h).1 rfl

/-- A registry has the keys that its chunk writes out. -/
theorem isSome_registry_of_mem (hR : Evaluates (split g.link inlined) R)
    (hn : (split g.link inlined).chunks[n]? = some c) {id : String} {m : Bundled}
    (hid : id ∈ c.modules) (hm : g.bundled? id = some m) (hne : m.key ≠ prototypeName) :
    (R n m.key).isSome := by
  rw [hR n c hn, merged]
  refine isSome_assign (List.mem_append_right _ (List.mem_singleton_self _)) ?_
  exact isSome_ownProperty (mem_ownMembers.2 ⟨rfl, hid, m, hm, rfl⟩) hne

/-- A registry has the keys of those it imports. -/
theorem isSome_registry_of_imported (hR : Evaluates (split g.link inlined) R)
    (hn : (split g.link inlined).chunks[n]? = some c) {key : String}
    (hk : k ∈ ((split g.link inlined).linksOf n c).chunks) (h : (R k key).isSome) :
    (R n key).isSome := by
  rw [hR n c hn, merged]
  exact isSome_assign (List.mem_append_left _ (List.mem_map.2 ⟨k, hk, rfl⟩)) h

/-- **The record of a module is found where its chunk is imported,** unless
its key is the name of the prototype. -/
theorem registry_eq (hR : Evaluates (split g.link inlined) R)
    (hinj : ∀ id id' m m', g.bundled? id = some m → g.bundled? id' = some m' →
      m.key = m'.key → id = id')
    (hn : (split g.link inlined).chunks[n]? = some c)
    (hk : (split g.link inlined).chunks[k]? = some c')
    (hsee : k = n ∨ k ∈ ((split g.link inlined).linksOf n c).chunks)
    {id : String} {m : Bundled} (hid : id ∈ c'.modules) (hm : g.bundled? id = some m) :
    R n m.key = if m.key = prototypeName then none else some (k, id) := by
  by_cases hproto : m.key = prototypeName
  · rw [if_pos hproto, hproto]
    exact registry_prototypeName hR hn
  · have hown := isSome_registry_of_mem hR hk hid hm hproto
    have hsome : (R n m.key).isSome := by
      rcases hsee with rfl | hsee
      · exact hown
      · exact isSome_registry_of_imported hR hn hsee hown
    -- whatever is found there is of a module with this key, and there is one
    obtain ⟨⟨k', id'⟩, hrecord⟩ := Option.isSome_iff_exists.1 hsome
    obtain ⟨-, d, m', hk', hid', hm', hkey⟩ := exists_module_of_registry hR hn hrecord
    obtain rfl : id' = id := hinj _ _ _ _ hm' hm hkey
    have hchunk := chunkOf?_eq_some_iff.2 ⟨d, hk', hid'⟩
    rw [chunkOf?_eq_some_iff.2 ⟨c', hk, hid⟩, Option.some_inj] at hchunk
    rw [if_neg hproto, hrecord, hchunk]

end DepBundle.ChunkGraph
