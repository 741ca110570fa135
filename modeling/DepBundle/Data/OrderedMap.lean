/-!
# Data — maps that remember their order

A finite map kept in the order its keys were first inserted. Writing to a
key that is present replaces its value and leaves its place.
-/

namespace DepBundle

/-- Entries with distinct keys, in the order the keys were first inserted. -/
structure OrderedMap (κ ν : Type) where
  /-- The entries, oldest key first. -/
  entries : List (κ × ν)
  /-- No key stands twice. -/
  nodup : (entries.map Prod.fst).Nodup

namespace OrderedMap

variable {κ ν : Type}

/-- The map without entries. -/
def empty : OrderedMap κ ν := ⟨[], List.nodup_nil⟩

instance : Inhabited (OrderedMap κ ν) := ⟨empty⟩

instance : EmptyCollection (OrderedMap κ ν) := ⟨empty⟩

/-- The keys in order. -/
def keys (m : OrderedMap κ ν) : List κ := m.entries.map Prod.fst

/-- The values in the order of their keys. -/
def values (m : OrderedMap κ ν) : List ν := m.entries.map Prod.snd

/-- Whether there is no entry. -/
def isEmpty (m : OrderedMap κ ν) : Bool := m.entries.isEmpty

/-- The number of entries. -/
def size (m : OrderedMap κ ν) : Nat := m.entries.length

/-- The map with every value changed. -/
def mapValues {μ : Type} (m : OrderedMap κ ν) (f : κ → ν → μ) : OrderedMap κ μ where
  entries := m.entries.map fun e => (e.1, f e.1 e.2)
  nodup := by simpa [Function.comp_def] using m.nodup

/-- The entries whose keys pass a test. -/
def filter (m : OrderedMap κ ν) (test : κ → Bool) : OrderedMap κ ν where
  entries := m.entries.filter fun e => test e.1
  nodup := m.nodup.sublist (List.filter_sublist.map _)

variable [DecidableEq κ]

/-- The value of the first entry under `k`. -/
def lookup (k : κ) : List (κ × ν) → Option ν
  | [] => none
  | (k', v) :: rest => if k' = k then some v else lookup k rest

/-- The value under a key. -/
def get? (m : OrderedMap κ ν) (k : κ) : Option ν := lookup k m.entries

/-- Whether a key has an entry. -/
def contains (m : OrderedMap κ ν) (k : κ) : Bool := (m.get? k).isSome

/-- Entries with the value under `k` replaced, or with a new entry at the
end. -/
def write (k : κ) (v : ν) : List (κ × ν) → List (κ × ν)
  | [] => [(k, v)]
  | (k', v') :: rest => if k' = k then (k', v) :: rest else (k', v') :: write k v rest

theorem mem_keys_write {k k' : κ} {v : ν} {es : List (κ × ν)} :
    k' ∈ (write k v es).map Prod.fst ↔ k' = k ∨ k' ∈ es.map Prod.fst := by
  induction es with
  | nil => simp [write]
  | cons e rest ih =>
    obtain ⟨k₀, v₀⟩ := e
    simp only [write]
    split
    · rename_i h; subst h
      simp only [List.map_cons, List.mem_cons]
      grind
    · simp only [List.map_cons, List.mem_cons, ih]; grind

theorem nodup_keys_write {k : κ} {v : ν} {es : List (κ × ν)}
    (h : (es.map Prod.fst).Nodup) : ((write k v es).map Prod.fst).Nodup := by
  induction es with
  | nil => simp [write]
  | cons e rest ih =>
    obtain ⟨k₀, v₀⟩ := e
    rw [List.map_cons, List.nodup_cons] at h
    simp only [write]
    split
    · simpa [List.nodup_cons] using h
    · rename_i hk
      rw [List.map_cons, List.nodup_cons, mem_keys_write]
      refine ⟨?_, ih h.2⟩
      rintro (h' | h')
      · exact hk h'
      · exact h.1 h'

/-- Sets the value under a key, in place where the key is present. -/
def insert (m : OrderedMap κ ν) (k : κ) (v : ν) : OrderedMap κ ν :=
  ⟨write k v m.entries, nodup_keys_write m.nodup⟩

/-- Sets the value under a key that has none, and leaves any other map
as it is. -/
def insertNew (m : OrderedMap κ ν) (k : κ) (v : ν) : OrderedMap κ ν :=
  if m.contains k then m else m.insert k v

/-- Changes the value under a key, starting from `start` where there is none. -/
def modify (m : OrderedMap κ ν) (k : κ) (start : ν) (f : ν → ν) : OrderedMap κ ν :=
  m.insert k (f ((m.get? k).getD start))

/-- The entries of a list written one after another: the last value of a
key counts, at the place of its first. -/
def ofList (es : List (κ × ν)) : OrderedMap κ ν :=
  es.foldl (fun m e => m.insert e.1 e.2) empty

theorem lookup_write {k k' : κ} {v : ν} {es : List (κ × ν)} :
    lookup k' (write k v es) = if k' = k then some v else lookup k' es := by
  induction es with
  | nil => simp only [write, lookup]; grind
  | cons e rest ih =>
    obtain ⟨k₀, v₀⟩ := e
    simp only [write]
    split <;> simp only [lookup, ih] <;> grind

@[simp] theorem get?_insert {m : OrderedMap κ ν} {k k' : κ} {v : ν} :
    (m.insert k v).get? k' = if k' = k then some v else m.get? k' := lookup_write

@[simp] theorem get?_empty {k : κ} : (empty : OrderedMap κ ν).get? k = none := rfl

theorem mem_keys_of_get? {m : OrderedMap κ ν} {k : κ} {v : ν} (h : m.get? k = some v) :
    k ∈ m.keys := by
  unfold get? at h
  unfold keys
  generalize m.entries = es at h ⊢
  induction es with
  | nil => simp [lookup] at h
  | cons e rest ih =>
    obtain ⟨k', v'⟩ := e
    simp only [lookup] at h
    split at h
    · rename_i hk; simp [hk]
    · exact List.mem_cons_of_mem _ (ih h)

end OrderedMap

end DepBundle
