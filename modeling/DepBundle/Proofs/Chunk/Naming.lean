import DepBundle.Chunk.Naming
import DepBundle.Proofs.Text.Segment
import Mathlib.Data.List.Nodup
import Mathlib.Data.List.Perm.Basic
/-!
# Chunks — the names that files are given

Each file is given the first name that no file before it has. Files that all
have a first name to themselves (`OwnNames`) are given it whatever order
they are named in (`nameAll_of_ownNames`). A file whose names tell its counts
apart is given one that no file before it has (`firstFree_notMem`), and the
names that come of a template with a place for the name do
(`counts_of_hasWord`).
-/

namespace DepBundle.ChunkGraph

variable {used more : List String} {u : Unnamed} {us us' : List Unnamed}

/-- The first name that a file could have, where some are used. -/
def firstFree (used : List String) (u : Unnamed) : String := u.unused used (used.length + 1) 1

theorem nameAll_cons :
    nameAll used (u :: us) = firstFree used u :: nameAll (firstFree used u :: used) us := rfl

@[simp] theorem length_nameAll : (nameAll used us).length = us.length := by
  induction us generalizing used with
  | nil => rfl
  | cons u us ih => rw [nameAll_cons, List.length_cons, ih, List.length_cons]

/-- Files named after others are named with the names of those used. -/
theorem nameAll_append : nameAll used (us ++ us') =
    nameAll used us ++ nameAll ((nameAll used us).reverse ++ used) us' := by
  induction us generalizing used with
  | nil => rfl
  | cons u us ih =>
    rw [List.cons_append, nameAll_cons, ih, nameAll_cons, List.reverse_cons, List.append_assoc]
    rfl

/-- A name that is found unused is found again where others are used. -/
theorem unused_append {n n' count : ℕ} (hn : n ≤ n') (hused : u.unused used n count ∉ used)
    (hmore : u.unused used n count ∉ more) :
    u.unused (more ++ used) n' count = u.unused used n count := by
  induction n generalizing n' count with
  | zero =>
    cases n' with
    | zero => rfl
    | succ n' =>
      have hnew : u.at count ∉ more ++ used := by
        rw [List.mem_append, not_or]
        exact ⟨hmore, hused⟩
      simp only [Unnamed.unused]
      rw [if_neg (by simpa using hnew)]
  | succ n ih =>
    obtain ⟨n', rfl⟩ : ∃ k, n' = k + 1 := ⟨n' - 1, by omega⟩
    rw [Unnamed.unused] at hused hmore ⊢
    rw [Unnamed.unused]
    by_cases hat : u.at count ∈ used
    · rw [if_pos (by simpa using hat)] at hused hmore
      rw [if_pos (by simpa using Or.inr hat), if_pos (by simpa using hat)]
      exact ih (by omega) hused hmore
    · rw [if_neg (by simpa using hat)] at hmore
      rw [if_neg (by simpa using ⟨hmore, hat⟩), if_neg (by simpa using hat)]

/-- **Files that all have a first name to themselves.** -/
structure OwnNames (used : List String) (us : List Unnamed) : Prop where
  unused : ∀ u ∈ us, firstFree used u ∉ used
  distinct : (us.map (firstFree used)).Nodup

theorem OwnNames.perm (h : OwnNames used us) (hperm : us.Perm us') : OwnNames used us' where
  unused u hu := h.unused u (hperm.mem_iff.2 hu)
  distinct := (hperm.map _).nodup_iff.1 h.distinct

/-- They are given that name, though other names are used that are the first of
none of them. -/
theorem nameAll_append_of_ownNames (h : OwnNames used us) (more : List String)
    (hmore : ∀ u ∈ us, firstFree used u ∉ more) :
    nameAll (more ++ used) us = us.map (firstFree used) := by
  induction us generalizing more with
  | nil => rfl
  | cons u us ih =>
    obtain ⟨hnew, hdistinct⟩ := List.nodup_cons.1 h.distinct
    have hfirst : firstFree (more ++ used) u = firstFree used u :=
      unused_append (by simp) (h.unused u (List.mem_cons_self ..)) (hmore u (List.mem_cons_self ..))
    rw [nameAll_cons, hfirst, List.map_cons, ← List.cons_append]
    refine congrArg _ (ih ⟨fun v hv => h.unused v (List.mem_cons_of_mem _ hv), hdistinct⟩ _ ?_)
    intro v hv
    rw [List.mem_cons, not_or]
    exact ⟨fun heq => hnew (heq ▸ List.mem_map_of_mem hv), hmore v (List.mem_cons_of_mem _ hv)⟩

/-- **They are given that name**, whatever order they are named in. -/
theorem nameAll_of_ownNames (h : OwnNames used us) :
    nameAll used us = us.map (firstFree used) :=
  nameAll_append_of_ownNames h [] (by simp)

/-! ## Names that differ -/

/-- The names that a file could have tell the counts apart that are written. -/
def Unnamed.Counts (u : Unnamed) : Prop :=
  ∀ i j, 2 ≤ i → 2 ≤ j → u.at i = u.at j → i = j

/-- **What is found was come to over used names only,** and is used itself only
where there was nothing more to try. -/
theorem exists_unused_eq (used : List String) (u : Unnamed) (n count : ℕ) :
    ∃ found, count ≤ found ∧ found ≤ count + n ∧ u.unused used n count = u.at found ∧
      (∀ k, count ≤ k → k < found → u.at k ∈ used) ∧
      (u.at found ∈ used → found = count + n) := by
  induction n generalizing count with
  | zero =>
    exact ⟨count, by omega, by omega, rfl, fun k hk hlt => absurd hlt (by omega), fun _ => rfl⟩
  | succ n ih =>
    rw [Unnamed.unused]
    by_cases hat : u.at count ∈ used
    · rw [if_pos (by simpa using hat)]
      obtain ⟨found, hle, hbound, heq, hbefore, hlast⟩ := ih (count + 1)
      refine ⟨found, by omega, by omega, heq, fun k hk hlt => ?_, fun hused => ?_⟩
      · rcases Nat.eq_or_lt_of_le hk with rfl | hlater
        · exact hat
        · exact hbefore k hlater hlt
      · have hend := hlast hused
        omega
    · rw [if_neg (by simpa using hat)]
      exact ⟨count, by omega, by omega, rfl, fun k hk hlt => absurd hlt (by omega),
        fun hused => absurd hused hat⟩

/-- **A file whose names tell its counts apart is given an unused one.** There
are more names with counts to try than there are used. -/
theorem firstFree_notMem (h : u.Counts) : firstFree used u ∉ used := by
  obtain ⟨found, -, -, heq, hbefore, hlast⟩ := exists_unused_eq used u (used.length + 1) 1
  intro hmem
  rw [firstFree, heq] at hmem
  have hend : found = 1 + (used.length + 1) := hlast hmem
  have hnodup : ((List.range (used.length + 1)).map fun k => u.at (2 + k)).Nodup := by
    refine List.Nodup.map_on ?_ List.nodup_range
    intro i _ j _ heq
    have hcount := h _ _ (by omega) (by omega) heq
    omega
  have hused : ((List.range (used.length + 1)).map fun k => u.at (2 + k)) ⊆ used := by
    intro name hname
    obtain ⟨k, hk, rfl⟩ := List.mem_map.1 hname
    have hlt := List.mem_range.1 hk
    have hle : 2 + k ≤ found := by omega
    rcases Nat.eq_or_lt_of_le hle with hat | hbelow
    · rw [hat]
      exact hmem
    · exact hbefore (2 + k) (by omega) hbelow
  have hle := hnodup.length_le_of_subset hused
  rw [List.length_map, List.length_range] at hle
  omega

theorem notMem_of_getElem?_nameAll {j : ℕ} {name : String} (hu : us[j]? = some u) (h : u.Counts)
    (hname : (nameAll used us)[j]? = some name) : name ∉ used := by
  induction us generalizing used j with
  | nil => cases hu
  | cons v us ih =>
    rw [nameAll_cons] at hname
    cases j with
    | zero =>
      obtain rfl := Option.some.inj hu
      obtain rfl := Option.some.inj hname
      exact firstFree_notMem h
    | succ j =>
      have hlater := ih hu hname
      rw [List.mem_cons, not_or] at hlater
      exact hlater.2

/-- **It is given a name that no file before it has.** -/
theorem getElem?_nameAll_ne {i j : ℕ} {name : String} (hij : i < j) (hu : us[j]? = some u)
    (h : u.Counts) (hname : (nameAll used us)[i]? = some name) :
    (nameAll used us)[j]? ≠ some name := by
  induction us generalizing used i j with
  | nil => cases hu
  | cons v us ih =>
    obtain ⟨j, rfl⟩ : ∃ k, j = k + 1 := ⟨j - 1, by omega⟩
    rw [nameAll_cons] at hname ⊢
    rw [List.getElem?_cons_succ] at hu ⊢
    cases i with
    | zero =>
      obtain rfl := Option.some.inj hname
      intro hagain
      exact notMem_of_getElem?_nameAll hu h hagain (List.mem_cons_self ..)
    | succ i => exact ih (by omega) hu hname

/-! ## Names by a name alone -/

variable {name rest digest : String}

/-- What a name comes to in a file name, where it has placeholders itself. -/
def filled (digest name : String) : String :=
  Text.replaceAll "[ext]" "" (Text.replaceAll "[extname]" "" (Text.replaceAll "[hash]" digest name))

/-- No placeholder runs into a text without its bracket. -/
theorem filled_append (h : ']' ∉ rest.toList) :
    filled digest (name ++ rest) = filled digest name ++ rest := by
  rw [filled, filled, Text.replaceAll_append (by decide) h, Text.replaceAll_append (by decide) h,
    Text.replaceAll_append (by decide) h]

/-- A text without brackets has no placeholders. -/
theorem filled_of_notMem (h : ']' ∉ name.toList) : filled digest name = name := by
  rw [filled, Text.replaceAll_of_notMem (by decide) h, Text.replaceAll_of_notMem (by decide) h,
    Text.replaceAll_of_notMem (by decide) h]

/-- Placeholders are filled in between slashes. -/
theorem split_filled (h : '/' ∉ digest.toList) :
    Text.split '/' (filled digest name) = (Text.split '/' name).map (filled digest) := by
  rw [filled, Text.split_replaceAll (by decide) (by decide),
    Text.split_replaceAll (by decide) (by decide), Text.split_replaceAll (by decide) h]
  simp only [List.map_map]
  rfl

theorem render_name : FileName.render "[name].js" name (some digest) none =
    filled digest name ++ ".js" := by
  have hnamed : Text.replaceAll "[name]" name "[name].js" = name ++ ".js" := by
    refine String.toList_inj.1 ?_
    simp [Text.replaceAll, Text.replaceWord, Text.after?]
  rw [← filled_append (by decide), filled, ← hnamed]
  rfl

/-- What is written of a count. -/
def counted (count : ℕ) : String := if count < 2 then "" else toString count

theorem Unnamed.at_eq (u : Unnamed) (count : ℕ) : u.at count =
    FileName.render u.template (u.name ++ counted count) (some u.digest) u.extension := by
  rw [Unnamed.at, counted]
  split
  · rw [String.append_empty]
  · rfl

/-- A count is written with digits. -/
theorem notMem_counted {c : Char} (hc : c.isDigit = false) (count : ℕ) :
    c ∉ (counted count).toList := by
  rw [counted]
  split
  · exact List.not_mem_nil
  · intro hmem
    have hdigit := Text.isDigit_of_mem_toString c hmem
    rw [hc] at hdigit
    cases hdigit

/-- What a count is written in can be told from the name it is a part of,
whatever else is filled in. -/
theorem markedBy_render {template : String} {extension : Option String}
    (h : Text.hasWord "[name]".toList template.toList) (name digest : String) :
    Text.MarkedBy fun mark =>
      FileName.render template (name ++ String.ofList mark) (some digest) extension := by
  have hnamed := Text.markedBy_replaceAll name (by decide) h
  have hdigested : Text.MarkedBy fun mark => Text.replaceAll "[hash]" digest
      (Text.replaceAll "[name]" (name ++ String.ofList mark) template) :=
    hnamed.replaceAll (by decide) digest
  simp only [FileName.render]
  exact (hdigested.replaceAll (by decide) _).replaceAll (by decide) _

/-- **A template that has a place for the name tells counts apart.** -/
theorem counts_of_hasWord (h : Text.hasWord "[name]".toList u.template.toList) : u.Counts := by
  intro i j hi hj heq
  rw [u.at_eq, u.at_eq, counted, counted, if_neg (by omega), if_neg (by omega),
    ← String.ofList_toList (s := toString i), ← String.ofList_toList (s := toString j)] at heq
  refine Text.toString_inj (String.toList_inj.1 ?_)
  exact (markedBy_render h u.name u.digest).inj (Text.toList_toString_ne_nil i)
    (Text.toList_toString_ne_nil j) Text.isDigit_of_mem_toString Text.isDigit_of_mem_toString heq

end DepBundle.ChunkGraph
