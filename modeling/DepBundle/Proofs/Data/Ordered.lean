import DepBundle.Data.OrderedMap
import DepBundle.Data.OrderedSet
import Mathlib.Data.List.Basic
import Mathlib.Data.List.Induction
import Mathlib.Tactic.SplitIfs
/-!
# Data — folds, keys and order

What holds of the result of a fold, by what holds of one step, the keys of a
map as a list, and the order in which a set has the values that were added
to it.
-/

namespace DepBundle

section

variable {α β γ : Type} {f : β → α → β}

/-- Where each step of a fold adds to what holds of the result, the fold
adds what its steps do. -/
theorem foldl_iff {P : β → Prop} {Q : α → Prop} (h : ∀ b a, P (f b a) ↔ P b ∨ Q a) (l : List α)
    (b : β) : P (l.foldl f b) ↔ P b ∨ ∃ a ∈ l, Q a := by
  induction l generalizing b with
  | nil => simp
  | cons a l ih =>
    rw [List.foldl_cons, ih, h, or_assoc]
    simp only [List.mem_cons, exists_eq_or_imp]

theorem foldl_eq {p : β → γ} (h : ∀ b a, p (f b a) = p b) (l : List α) (b : β) :
    p (l.foldl f b) = p b := by
  induction l generalizing b with
  | nil => rfl
  | cons a l ih => rw [List.foldl_cons, ih, h]

end

section

variable {α β : Type} [DecidableEq α] [DecidableEq β] {a b : β} {l : List β}

/-- Leaving out other values does not change which of two stands first. -/
theorem idxOf_filter_lt_iff {p : β → Bool} (ha : p a) (hb : p b) :
    (l.filter p).idxOf a < (l.filter p).idxOf b ↔ l.idxOf a < l.idxOf b := by
  induction l with
  | nil => rfl
  | cons x l ih =>
    by_cases hx : p x
    · rw [List.filter_cons_of_pos hx]
      grind
    · have hxa : x ≠ a := fun heq => hx (heq ▸ ha)
      have hxb : x ≠ b := fun heq => hx (heq ▸ hb)
      rw [List.filter_cons_of_neg hx, List.idxOf_cons_ne _ hxa, List.idxOf_cons_ne _ hxb, ih,
        Nat.succ_lt_succ_iff]

/-- Of two values that members of a list list, the one stands first whose
first lister does, or that this one lists first. -/
theorem idxOf_flatMap_lt_iff {f : α → List β} {ps : List α} {p q : α}
    (hp : ps.find? (fun x => a ∈ f x) = some p) (hq : ps.find? (fun x => b ∈ f x) = some q) :
    (ps.flatMap f).idxOf a < (ps.flatMap f).idxOf b ↔
      ps.idxOf p < ps.idxOf q ∨ p = q ∧ (f p).idxOf a < (f p).idxOf b := by
  induction ps with
  | nil => cases hp
  | cons x ps ih =>
    have hlater : ∀ {c r}, ps.find? (fun x => c ∈ f x) = some r → c ∉ f x → x ≠ r := by
      rintro c r hr hc rfl
      exact hc (by simpa using List.find?_some hr)
    rw [List.flatMap_cons]
    -- the first member lists both values, one of them or neither
    by_cases ha : a ∈ f x
    · obtain rfl : x = p := by simpa [List.find?_cons, ha] using hp
      rw [List.idxOf_append_of_mem ha, List.idxOf_cons_self]
      by_cases hb : b ∈ f x
      · obtain rfl : x = q := by simpa [List.find?_cons, hb] using hq
        simp [List.idxOf_append_of_mem hb]
      · have hq : ps.find? (fun x => b ∈ f x) = some q := by simpa [List.find?_cons, hb] using hq
        have hlt := List.idxOf_lt_length_iff.2 ha
        rw [List.idxOf_append_of_notMem hb, List.idxOf_cons_ne _ (hlater hq hb)]
        exact iff_of_true (by omega) (Or.inl (Nat.succ_pos _))
    · have hp : ps.find? (fun x => a ∈ f x) = some p := by simpa [List.find?_cons, ha] using hp
      have hxp : x ≠ p := hlater hp ha
      rw [List.idxOf_append_of_notMem ha, List.idxOf_cons_ne _ hxp]
      by_cases hb : b ∈ f x
      · obtain rfl : x = q := by simpa [List.find?_cons, hb] using hq
        have hlt := List.idxOf_lt_length_iff.2 hb
        rw [List.idxOf_append_of_mem hb, List.idxOf_cons_self]
        refine iff_of_false (by omega) ?_
        rintro (h | ⟨heq, -⟩)
        · exact Nat.not_lt_zero _ h
        · exact hxp heq.symm
      · have hq : ps.find? (fun x => b ∈ f x) = some q := by simpa [List.find?_cons, hb] using hq
        rw [List.idxOf_append_of_notMem hb, List.idxOf_cons_ne _ (hlater hq hb),
          Nat.add_lt_add_iff_left, ih hp hq, Nat.succ_lt_succ_iff]

end

namespace OrderedMap

variable {κ ν : Type} {m : OrderedMap κ ν} {k : κ}

theorem length_keys : m.keys.length = m.size := by simp [keys, size]

theorem mem_keys_of_contains [DecidableEq κ] (h : m.contains k) : k ∈ m.keys := by
  obtain ⟨v, hv⟩ := Option.isSome_iff_exists.1 h
  exact mem_keys_of_get? hv

theorem lookup_eq_some_iff [DecidableEq κ] {es : List (κ × ν)} (hnodup : (es.map Prod.fst).Nodup)
    {v : ν} : lookup k es = some v ↔ (k, v) ∈ es := by
  induction es with
  | nil => simp [lookup]
  | cons e es ih =>
    obtain ⟨k', v'⟩ := e
    obtain ⟨hnew, hnodup⟩ := List.nodup_cons.1 hnodup
    rw [lookup, List.mem_cons, Prod.mk.injEq]
    by_cases hk : k' = k
    · have hnotMem : (k, v) ∉ es := fun hmem => hnew (hk ▸ List.mem_map.2 ⟨(k, v), hmem, rfl⟩)
      rw [if_pos hk, or_iff_left hnotMem]
      simp [hk, eq_comm]
    · rw [if_neg hk, ih hnodup, or_iff_right]
      exact fun h => hk h.1.symm

theorem lookup_eq_none [DecidableEq κ] {es : List (κ × ν)} (h : k ∉ es.map Prod.fst) :
    lookup k es = none := by
  induction es with
  | nil => rfl
  | cons e es ih =>
    rw [List.map_cons, List.mem_cons, not_or] at h
    rw [lookup, if_neg (Ne.symm h.1), ih h.2]

theorem list_lookup_eq [DecidableEq κ] (es : List (κ × ν)) : es.lookup k = lookup k es := by
  induction es with
  | nil => rfl
  | cons e es ih =>
    rw [List.lookup_cons, lookup, ih]
    by_cases hk : e.1 = k
    · simp [hk]
    · rw [if_neg hk, beq_false_of_ne (Ne.symm hk)]

/-- Where no key stands twice, it does not matter in which order entries
stand. -/
theorem lookup_perm [DecidableEq κ] {es es' : List (κ × ν)} (hnodup : (es.map Prod.fst).Nodup)
    (h : es.Perm es') : lookup k es = lookup k es' := by
  ext v
  rw [lookup_eq_some_iff hnodup, lookup_eq_some_iff ((h.map Prod.fst).nodup_iff.1 hnodup),
    h.mem_iff]

/-- The entries of a map are what is found in it. -/
theorem get?_eq_some_iff [DecidableEq κ] {v : ν} : m.get? k = some v ↔ (k, v) ∈ m.entries :=
  lookup_eq_some_iff m.nodup

/-- A key has one value. -/
theorem value_unique (m : OrderedMap κ ν) {v v' : ν} (h : (k, v) ∈ m.entries)
    (h' : (k, v') ∈ m.entries) : v = v' := by
  classical
  exact Option.some.inj ((get?_eq_some_iff.2 h).symm.trans (get?_eq_some_iff.2 h'))

theorem contains_iff_mem_keys [DecidableEq κ] : m.contains k ↔ k ∈ m.keys := by
  constructor
  · exact mem_keys_of_contains
  · intro hk
    obtain ⟨⟨k, v⟩, hmem, rfl⟩ := List.mem_map.1 hk
    rw [contains, get?_eq_some_iff.2 hmem]
    rfl

section

variable [DecidableEq κ] {v start : ν} {f : ν → ν} {k' : κ}

theorem contains_insert : (m.insert k v).contains k' ↔ k' = k ∨ m.contains k' := by
  rw [contains, contains, get?_insert]
  split <;> simp_all

theorem get?_insertNew :
    (m.insertNew k v).get? k' = if k' = k then some ((m.get? k).getD v) else m.get? k' := by
  rw [insertNew, contains]
  cases hk : m.get? k with
  | none => simp
  | some old =>
    rw [if_pos (by rfl)]
    split_ifs with heq
    · rw [heq, hk]
      rfl
    · rfl

theorem get?_modify :
    (m.modify k start f).get? k' = if k' = k then some (f ((m.get? k).getD start)) else m.get? k' :=
  get?_insert

theorem contains_modify : (m.modify k start f).contains k' ↔ k' = k ∨ m.contains k' :=
  contains_insert

theorem lookup_map {μ : Type} (f : κ → ν → μ) (es : List (κ × ν)) :
    lookup k (es.map fun e => (e.1, f e.1 e.2)) = (lookup k es).map (f k) := by
  induction es with
  | nil => rfl
  | cons e es ih =>
    rw [List.map_cons, lookup, ih, lookup]
    split_ifs with hk
    · rw [hk]
      rfl
    · rfl

theorem get?_mapValues {μ : Type} (f : κ → ν → μ) : (m.mapValues f).get? k = (m.get? k).map (f k) :=
  lookup_map f m.entries

theorem mem_or_of_get?_foldl_insert {es : List (κ × ν)}
    (h : (es.foldl (fun m e => m.insert e.1 e.2) m).get? k = some v) :
    (k, v) ∈ es ∨ m.get? k = some v := by
  induction es generalizing m with
  | nil => exact Or.inr h
  | cons e es ih =>
    rcases ih h with hmem | hget
    · exact Or.inl (List.mem_cons_of_mem _ hmem)
    · rw [get?_insert] at hget
      split at hget
      · rename_i hk
        obtain rfl := Option.some.inj hget
        exact Or.inl (hk ▸ List.mem_cons_self ..)
      · exact Or.inr hget

/-- What is found in a list written one after another stands in it. -/
theorem mem_of_get?_ofList {es : List (κ × ν)} (h : (ofList es).get? k = some v) : (k, v) ∈ es :=
  (mem_or_of_get?_foldl_insert (m := empty) h).resolve_right (by simp)

theorem contains_ofList {es : List (κ × ν)} : (ofList es).contains k ↔ k ∈ es.map Prod.fst := by
  have hfold : (ofList es).contains k ↔ (empty : OrderedMap κ ν).contains k ∨ ∃ e ∈ es, e.1 = k :=
    foldl_iff (P := fun m : OrderedMap κ ν => m.contains k)
      (fun m e => by rw [contains_insert, or_comm, eq_comm (a := k)]) es empty
  have hempty : ¬ (empty : OrderedMap κ ν).contains k := by simp [contains]
  rw [hfold, or_iff_right hempty, List.mem_map]

theorem get?_foldl_insert {es : List (κ × ν)} (hnodup : (es.map Prod.fst).Nodup) :
    (es.foldl (fun m e => m.insert e.1 e.2) m).get? k = (lookup k es).or (m.get? k) := by
  induction es generalizing m with
  | nil => rfl
  | cons e es ih =>
    obtain ⟨hnew, hes⟩ := List.nodup_cons.1 hnodup
    rw [List.foldl_cons, ih hes, get?_insert, lookup]
    by_cases hk : k = e.1
    · rw [lookup_eq_none (hk ▸ hnew), if_pos hk, if_pos hk.symm]
      rfl
    · rw [if_neg hk, if_neg (Ne.symm hk)]

/-- Where no key stands twice, a list written one after another is what it
is as a map. -/
theorem get?_ofList {es : List (κ × ν)} (hnodup : (es.map Prod.fst).Nodup) :
    (ofList es).get? k = lookup k es := by
  have hget : (ofList es).get? k = _ := get?_foldl_insert (m := empty) hnodup
  rw [hget, get?_empty, Option.or_none]

theorem filter_eq_lookup {es : List (κ × ν)} (hnodup : (es.map Prod.fst).Nodup) :
    es.filter (·.1 = k) = ((lookup k es).map (k, ·)).toList := by
  induction es with
  | nil => rfl
  | cons e es ih =>
    obtain ⟨hnew, hes⟩ := List.nodup_cons.1 hnodup
    rw [lookup]
    by_cases hk : e.1 = k
    · have hrest : es.filter (·.1 = k) = [] := by
        rw [ih hes, lookup_eq_none (hk ▸ hnew)]
        rfl
      rw [List.filter_cons_of_pos (by simpa using hk), hrest, if_pos hk, ← hk]
      rfl
    · rw [List.filter_cons_of_neg (by simpa using hk), ih hes, if_neg hk]

/-- No key stands twice, so an entry is found alone. -/
theorem filter_entries (m : OrderedMap κ ν) (k : κ) :
    m.entries.filter (·.1 = k) = ((m.get? k).map (k, ·)).toList :=
  filter_eq_lookup m.nodup

theorem write_eq_self {es : List (κ × ν)} (h : lookup k es = some v) : write k v es = es := by
  induction es with
  | nil => cases h
  | cons e es ih =>
    rw [lookup] at h
    rw [write]
    split_ifs at h ⊢ with hk
    · obtain rfl := Option.some.inj h
      rfl
    · rw [ih h]

/-- Writing what is there already changes nothing. -/
theorem insert_eq_self (h : m.get? k = some v) : m.insert k v = m := by
  obtain ⟨es, hnodup⟩ := m
  simp only [insert, mk.injEq]
  exact write_eq_self h

end

end OrderedMap

namespace OrderedSet

variable {α : Type} [DecidableEq α] {s : OrderedSet α} {a b : α} {l : List α}

theorem insert_eq_self (h : a ∈ s) : s.insert a = s :=
  ext_toList ((toList_insert s a).trans (if_pos h))

theorem insertMany_eq_self (h : ∀ a ∈ l, a ∈ s) : s.insertMany l = s := by
  induction l with
  | nil => rfl
  | cons a l ih =>
    have hcons : s.insertMany (a :: l) = (s.insert a).insertMany l := rfl
    rw [hcons, insert_eq_self (h a (List.mem_cons_self ..))]
    exact ih fun b hb => h b (List.mem_cons_of_mem _ hb)

theorem insertMany_append (s : OrderedSet α) (l l' : List α) :
    s.insertMany (l ++ l') = (s.insertMany l).insertMany l' := List.foldl_append

/-- Values are added at the end. -/
theorem exists_toList_insertMany (s : OrderedSet α) (l : List α) :
    ∃ more, (s.insertMany l).toList = s.toList ++ more := by
  induction l generalizing s with
  | nil => exact ⟨[], (List.append_nil _).symm⟩
  | cons a l ih =>
    obtain ⟨more, hmore⟩ := ih (s.insert a)
    have hcons : s.insertMany (a :: l) = (s.insert a).insertMany l := rfl
    rw [hcons, hmore, toList_insert]
    split_ifs
    · exact ⟨more, rfl⟩
    · exact ⟨a :: more, by rw [List.append_assoc, List.singleton_append]⟩

/-- Leaving out what is there already changes nothing. -/
theorem insertMany_filter {p : α → Bool} (h : ∀ a ∈ l, p a = false → a ∈ s) :
    s.insertMany (l.filter p) = s.insertMany l := by
  induction l generalizing s with
  | nil => rfl
  | cons a l ih =>
    have hrest : ∀ b ∈ l, p b = false → b ∈ s.insert a := fun b hb hpb =>
      mem_insert.2 (Or.inr (h b (List.mem_cons_of_mem _ hb) hpb))
    have hcons : s.insertMany (a :: l) = (s.insert a).insertMany l := rfl
    rw [hcons, ← ih hrest]
    by_cases hpa : p a
    · rw [List.filter_cons_of_pos hpa]
      rfl
    · rw [List.filter_cons_of_neg hpa,
        insert_eq_self (h a (List.mem_cons_self ..) (Bool.eq_false_iff.2 hpa))]

/-- What stands before a value of the front of a list is of the front too. -/
theorem mem_of_sublist_ofList {front rest : List α} {b : α}
    (h : [a, b].Sublist (ofList (front ++ rest)).toList) (hb : b ∈ front) : a ∈ front := by
  have hfront : b ∈ (ofList front).toList := mem_ofList.2 hb
  have hsplit : ofList (front ++ rest) = (ofList front).insertMany rest := insertMany_append ..
  obtain ⟨more, hmore⟩ := exists_toList_insertMany (ofList front) rest
  have hnodup := (ofList (front ++ rest)).nodup
  rw [hsplit, hmore] at h hnodup
  have hb_more : b ∉ more := fun hb' => (List.nodup_append.1 hnodup).2.2 b hfront b hb' rfl
  obtain ⟨l₁, l₂, hl, h₁, h₂⟩ := List.sublist_append_iff.1 h
  -- the second of the two is not among the rest, so neither is the first
  obtain rfl : l₂ = [] := by
    rcases List.eq_nil_or_concat l₂ with hnil | ⟨l₃, c, rfl⟩
    · exact hnil
    · have hlast : b = c := by
        have := congrArg List.getLast? hl
        simpa using this
      exact absurd (h₂.subset (by simp [hlast])) hb_more
  rw [List.append_nil] at hl
  exact mem_ofList.1 (h₁.subset (hl ▸ List.mem_cons_self ..) : a ∈ (ofList front).toList)

/-- A value added to what is added comes last, unless it is there. -/
theorem insertMany_insert (s t : OrderedSet α) (a : α) :
    s.insertMany (t.insert a).toList = (s.insertMany t.toList).insert a := by
  rw [toList_insert]
  split_ifs with ha
  · exact (insert_eq_self (mem_insertMany.2 (Or.inl ha))).symm
  · exact insertMany_append ..

/-- Values that are new, each once, come after those that are there. -/
theorem toList_insertMany {s : OrderedSet α} {l : List α} (h : (s.toList ++ l).Nodup) :
    (s.insertMany l).toList = s.toList ++ l := by
  induction l generalizing s with
  | nil => exact (List.append_nil _).symm
  | cons a l ih =>
    have hnew : a ∉ s.toList := fun hmem =>
      (List.nodup_append.1 h).2.2 a hmem a (List.mem_cons_self ..) rfl
    have hinsert : (s.insert a).toList = s.toList ++ [a] := by rw [toList_insert, if_neg hnew]
    have hrest := ih (s := s.insert a) (by rwa [hinsert, ← List.append_cons])
    rwa [hinsert, ← List.append_cons] at hrest

/-- Listing a set and putting it together again changes nothing. -/
theorem ofList_toList (s : OrderedSet α) : ofList s.toList = s :=
  ext_toList (toList_insertMany s.nodup)

/-- The values of a list stand in the order in which it first has them. -/
theorem toList_ofList (l : List α) : (ofList l).toList = l.eraseDups := by
  induction l using List.reverseRecOn with
  | nil => rfl
  | append_singleton l a ih =>
    have hlast : ofList (l ++ [a]) = (ofList l).insert a := insertMany_append ..
    have hmem : a ∈ (ofList l).toList ↔ a ∈ l := mem_ofList
    rw [hlast, toList_insert, ih, List.eraseDups_append]
    split_ifs with ha
    · rw [← ih, hmem] at ha
      simp [List.removeAll, ha]
    · rw [← ih, hmem] at ha
      simp [List.removeAll, ha, List.eraseDups_cons]

/-- Of two values of a list, the one stands first in its set that stands first
in the list. -/
theorem idxOf_ofList_lt_iff (ha : a ∈ l) (hb : b ∈ l) :
    (ofList l).toList.idxOf a < (ofList l).toList.idxOf b ↔ l.idxOf a < l.idxOf b := by
  induction l using List.reverseRecOn with
  | nil => cases ha
  | append_singleton l x ih =>
    have hlast : ofList (l ++ [x]) = (ofList l).insert x := insertMany_append ..
    have hmem : ∀ c, c ∈ (ofList l).toList ↔ c ∈ l := fun c => mem_ofList
    -- what was there already stands where it stood
    have hold : ∀ c ∈ l, ((ofList l).insert x).toList.idxOf c = (ofList l).toList.idxOf c := by
      intro c hc
      rw [toList_insert]
      split_ifs
      · rfl
      · exact List.idxOf_append_of_mem ((hmem c).2 hc)
    have hnew : ∀ c ∉ l, c ∈ l ++ [x] →
        ((ofList l).insert x).toList.idxOf c = (ofList l).toList.length := by
      intro c hc hcx
      obtain rfl : c = x := by simpa [hc] using hcx
      rw [toList_insert, if_neg (mt (hmem c).1 hc), List.idxOf_append_of_notMem (mt (hmem c).1 hc)]
      simp
    rw [hlast]
    by_cases hal : a ∈ l <;> by_cases hbl : b ∈ l
    · rw [hold a hal, hold b hbl, List.idxOf_append_of_mem hal, List.idxOf_append_of_mem hbl]
      exact ih hal hbl
    · rw [hold a hal, hnew b hbl hb, List.idxOf_append_of_mem hal, List.idxOf_append_of_notMem hbl]
      have h1 := List.idxOf_lt_length_iff.2 hal
      have h2 := List.idxOf_lt_length_iff.2 ((hmem a).2 hal)
      exact iff_of_true h2 (by omega)
    · rw [hold b hbl, hnew a hal ha, List.idxOf_append_of_mem hbl, List.idxOf_append_of_notMem hal]
      have h1 := List.idxOf_lt_length_iff.2 hbl
      have h2 := List.idxOf_lt_length_iff.2 ((hmem b).2 hbl)
      exact iff_of_false (by omega) (by omega)
    · obtain rfl : a = x := by simpa [hal] using ha
      obtain rfl : b = a := by simpa [hbl] using hb
      exact iff_of_false (Nat.lt_irrefl _) (Nat.lt_irrefl _)

end OrderedSet

end DepBundle
