import DepBundle.Chunk.EntryBits
import Mathlib.Data.Nat.Bitwise
/-!
# Chunks — sets of entries as sets

The packed bytes hold a set of numbers: adding a number adds that one and
no other (`contains_insert`), and sets with the same room are equal when
they have the same numbers (`eq_of_contains`). So a set is known by what was
added to it, in whatever order and however often (`collects_extensional`),
and numbers below its size always find their byte, counted in machine words
as well, up to the largest size that a word can tell.
-/

namespace DepBundle.EntryBits

variable {s t : EntryBits} {b b' n : ℕ} {l l' : List ℕ}

/-! ## Bits of a byte -/

theorem toNat_mask (b : ℕ) : (mask b).toNat = 2 ^ (b % 8) := by
  have hall : ∀ i : Fin 8, ((1 : UInt8) <<< UInt8.ofNat i).toNat = 2 ^ (i : ℕ) := by decide
  exact hall ⟨b % 8, Nat.mod_lt _ (by decide)⟩

theorem testBit_of_le (byte : UInt8) {j : ℕ} (h : 8 ≤ j) : byte.toNat.testBit j = false :=
  Nat.testBit_lt_two_pow (Nat.lt_of_lt_of_le (UInt8.toNat_lt byte)
    (Nat.pow_le_pow_right (by decide) h))

/-- Bytes with the same bits are equal. -/
theorem eq_of_testBit {x y : UInt8} (h : ∀ j < 8, x.toNat.testBit j = y.toNat.testBit j) :
    x = y := by
  rw [← UInt8.toNat_inj]
  refine Nat.eq_of_testBit_eq fun j => ?_
  rcases Nat.lt_or_ge j 8 with hj | hj
  · exact h j hj
  · rw [testBit_of_le x hj, testBit_of_le y hj]

/-- A mask reads one bit of a byte. -/
theorem and_mask_ne_zero (byte : UInt8) (b : ℕ) :
    (byte &&& mask b != 0) = byte.toNat.testBit (b % 8) := by
  rw [Bool.eq_iff_iff, bne_iff_ne, ne_eq, ← UInt8.toNat_inj, UInt8.toNat_and, toNat_mask,
    Nat.and_two_pow]
  cases byte.toNat.testBit (b % 8) <;> simp

/-- A mask adds one bit to a byte. -/
theorem testBit_or_mask (byte : UInt8) (b i : ℕ) :
    (byte ||| mask b).toNat.testBit i = (byte.toNat.testBit i || decide (b % 8 = i)) := by
  rw [UInt8.toNat_or, toNat_mask, Nat.testBit_or, Nat.testBit_two_pow]

/-! ## Numbers of a set -/

theorem contains_eq (h : b / 8 < s.bytes.size) :
    s.contains b = s.bytes[b / 8].toNat.testBit (b % 8) := by
  rw [contains, get?, Array.getElem?_eq_getElem h, Option.map_some, Option.getD_some,
    and_mask_ne_zero]

theorem contains_of_size_le (h : s.bytes.size ≤ b / 8) : s.contains b = false := by
  rw [contains, get?, Array.getElem?_eq_none h, Option.map_none, Option.getD_none]

theorem size_ofSize : (ofSize n).bytes.size = (n + 7) / 8 := by
  simp [ofSize]

/-- A number below the size of a set has room in it. -/
theorem room (h : b < n) : b / 8 < (ofSize n).bytes.size := by
  rw [size_ofSize]
  omega

theorem insert_eq (h : b / 8 < s.bytes.size) :
    s.insert b = ⟨s.bytes.set (b / 8) (s.bytes[b / 8] ||| mask b)⟩ := by
  rw [insert, set?, dif_pos h, Option.getD_some]

@[simp] theorem size_insert : (s.insert b).bytes.size = s.bytes.size := by
  by_cases h : b / 8 < s.bytes.size
  · rw [insert_eq h, Array.size_set]
  · rw [insert, set?, dif_neg h, Option.getD_none]

@[simp] theorem contains_ofSize : (ofSize n).contains b = false := by
  rcases Nat.lt_or_ge (b / 8) (ofSize n).bytes.size with h | h
  · rw [contains_eq h]
    simp [ofSize]
  · exact contains_of_size_le h

/-- **Adding a number adds that one and no other.** -/
theorem contains_insert (h : b / 8 < s.bytes.size) :
    (s.insert b).contains b' = (s.contains b' || decide (b' = b)) := by
  rcases Nat.lt_or_ge (b' / 8) s.bytes.size with h' | h'
  · rw [contains_eq (by rwa [size_insert]), contains_eq h']
    simp only [insert_eq h, Array.getElem_set]
    split
    · rename_i heq
      have hiff : b % 8 = b' % 8 ↔ b' = b := by omega
      simp only [testBit_or_mask, heq, hiff]
    · rename_i hne
      have hbb : b' ≠ b := fun he => hne (he ▸ rfl)
      simp [hbb]
  · have hbb : b' ≠ b := by omega
    rw [contains_of_size_le h', contains_of_size_le (by rwa [size_insert])]
    simp [hbb]

theorem size_foldl_insert : (l.foldl insert s).bytes.size = s.bytes.size := by
  induction l generalizing s with
  | nil => rfl
  | cons b l ih => rw [List.foldl_cons, ih, size_insert]

/-- **Adding numbers one after another adds those and no others.** -/
theorem contains_foldl_insert (h : ∀ b ∈ l, b / 8 < s.bytes.size) :
    (l.foldl insert s).contains b' ↔ s.contains b' ∨ b' ∈ l := by
  induction l generalizing s with
  | nil => simp
  | cons b l ih =>
    have hb : b / 8 < s.bytes.size := h b (List.mem_cons_self ..)
    have hl : ∀ b' ∈ l, b' / 8 < (s.insert b).bytes.size := fun b' hb' => by
      rw [size_insert]
      exact h b' (List.mem_cons_of_mem _ hb')
    rw [List.foldl_cons, ih hl, contains_insert hb, Bool.or_eq_true, decide_eq_true_iff,
      List.mem_cons, or_assoc]

/-- **Sets with the same room and the same numbers are equal.** -/
theorem eq_of_contains (hsize : s.bytes.size = t.bytes.size)
    (h : ∀ b, s.contains b = t.contains b) : s = t := by
  obtain ⟨a⟩ := s
  obtain ⟨a'⟩ := t
  congr 1
  -- bit `j` of byte `i` stands for the number `8 * i + j`
  refine Array.ext hsize fun i hi hi' => eq_of_testBit fun j hj => ?_
  have hdiv : (8 * i + j) / 8 = i := by omega
  have hmod : (8 * i + j) % 8 = j := by omega
  have hb := h (8 * i + j)
  rw [contains_eq (by rwa [hdiv]), contains_eq (by rwa [hdiv])] at hb
  simpa only [hdiv, hmod] using hb

/-- A set is found empty when it has no number. -/
theorem isEmpty_iff : s.isEmpty ↔ ∀ b, s.contains b = false := by
  rw [isEmpty, Array.all_eq_true]
  constructor
  · intro h b
    rcases Nat.lt_or_ge (b / 8) s.bytes.size with hb | hb
    · have hzero : s.bytes[b / 8] = 0 := by simpa using h (b / 8) hb
      rw [contains_eq hb, hzero, UInt8.toNat_zero, Nat.zero_testBit]
    · exact contains_of_size_le hb
  · intro h i hi
    rw [beq_iff_eq]
    refine eq_of_testBit fun j hj => ?_
    have hdiv : (8 * i + j) / 8 = i := by omega
    have hmod : (8 * i + j) % 8 = j := by omega
    have hb := h (8 * i + j)
    rw [contains_eq (by rwa [hdiv])] at hb
    simpa only [hdiv, hmod, UInt8.toNat_zero, Nat.zero_testBit] using hb

/-! ## One call after another -/

theorem get?_eq (h : b / 8 < s.bytes.size) : s.get? b = some (s.contains b) := by
  rw [contains, get?, Array.getElem?_eq_getElem h, Option.map_some, Option.getD_some]

theorem set?_eq (h : b / 8 < s.bytes.size) : s.set? b = some (s.insert b) := by
  rw [insert_eq h, set?, dif_pos h]

/-- **Calls that add numbers with room find a byte each,** and leave the set
with these numbers added. -/
theorem foldlM_set? (h : ∀ b ∈ l, b / 8 < s.bytes.size) :
    l.foldlM set? s = some (l.foldl insert s) := by
  induction l generalizing s with
  | nil => rfl
  | cons b l ih =>
    have hl : ∀ b' ∈ l, b' / 8 < (s.insert b).bytes.size := fun b' hb' => by
      rw [size_insert]
      exact h b' (List.mem_cons_of_mem _ hb')
    rw [List.foldlM_cons, set?_eq (h b (List.mem_cons_self ..)), List.foldl_cons]
    exact ih hl

theorem contains_foldl_ofSize (h : ∀ b ∈ l, b < n) :
    (l.foldl insert (ofSize n)).contains b ↔ b ∈ l := by
  rw [contains_foldl_insert fun b hb => room (h b hb), contains_ofSize]
  simp

/-- Nothing is found where nothing was added. -/
theorem isEmpty_foldl_ofSize (h : ∀ b ∈ l, b < n) :
    (l.foldl insert (ofSize n)).isEmpty ↔ l = [] := by
  simp only [isEmpty_iff, ← Bool.not_eq_true, contains_foldl_ofSize h]
  exact List.eq_nil_iff_forall_not_mem.symm

/-- Sets of one size are equal where the same numbers were added. -/
theorem foldl_ofSize_eq_iff (h : ∀ b ∈ l, b < n) (h' : ∀ b ∈ l', b < n) :
    l.foldl insert (ofSize n) = l'.foldl insert (ofSize n) ↔ ∀ b, b ∈ l ↔ b ∈ l' := by
  constructor
  · intro heq b
    rw [← contains_foldl_ofSize h, heq, contains_foldl_ofSize h']
  · intro hsame
    refine eq_of_contains ?_ fun b => ?_
    · rw [size_foldl_insert, size_foldl_insert]
    · rw [Bool.eq_iff_iff, contains_foldl_ofSize h, contains_foldl_ofSize h', hsame]

/-! ## In machine words

Sizes and numbers are told in words of 32 bits, and places among the bytes in
the words of a machine. Nothing is too large on the way to a byte and its bit,
so the calls in words are the calls above. -/

/-- How many bytes hold the numbers below `n`: an eighth of `n`, rounded up. -/
def byteCount (n : UInt32) : UInt32 := if 0 < n % 8 then n / 8 + 1 else n / 8

/-- The place of the byte that number `b` is in. -/
def byteOf (b : UInt32) : USize := b.toUSize / 8

/-- The byte that holds only the bit of number `b`. -/
def maskOf (b : UInt32) : UInt8 := 1 <<< (b &&& 7).toUInt8

/-- `ofSize`, in words. -/
def ofWord (n : UInt32) : EntryBits := ⟨Array.replicate (byteCount n).toUSize.toNat 0⟩

/-- `get?`, in words. -/
def getWord? (s : EntryBits) (b : UInt32) : Option Bool :=
  s.bytes[(byteOf b).toNat]?.map fun byte => byte &&& maskOf b != 0

/-- `set?`, in words. -/
def setWord? (s : EntryBits) (b : UInt32) : Option EntryBits :=
  if h : (byteOf b).toNat < s.bytes.size then
    some ⟨s.bytes.set (byteOf b).toNat (s.bytes[(byteOf b).toNat] ||| maskOf b)⟩
  else none

theorem toNat_byteCount (n : UInt32) : (byteCount n).toNat = (n.toNat + 7) / 8 := by
  have hlt := n.toNat_lt
  have hrest : 0 < n % 8 ↔ 0 < n.toNat % 8 := by
    rw [UInt32.lt_iff_toNat_lt, UInt32.toNat_mod]
    rfl
  have hdiv : (n / 8).toNat = n.toNat / 8 := UInt32.toNat_div n 8
  have hsucc : (n / 8 + 1).toNat = n.toNat / 8 + 1 := by
    -- an eighth of a word leaves room for one more
    rw [UInt32.toNat_add, hdiv, UInt32.toNat_one]
    exact Nat.mod_eq_of_lt (by omega)
  by_cases h : 0 < n.toNat % 8
  · rw [byteCount, if_pos (hrest.2 h), hsucc]
    omega
  · rw [byteCount, if_neg (mt hrest.1 h), hdiv]
    omega

theorem toNat_byteOf (b : UInt32) : (byteOf b).toNat = b.toNat / 8 := by
  have height : (8 : USize).toNat = 8 := by simp
  rw [byteOf, USize.toNat_div, UInt32.toNat_toUSize, height]

theorem maskOf_eq (b : UInt32) : maskOf b = mask b.toNat := by
  have hbit : (b &&& 7).toUInt8 = UInt8.ofNat (b.toNat % 8) := by
    rw [← UInt8.toNat_inj, UInt32.toNat_toUInt8, UInt32.toNat_and, UInt8.toNat_ofNat']
    exact congrArg (· % 2 ^ 8) (Nat.and_two_pow_sub_one_eq_mod b.toNat 3)
  rw [maskOf, mask, hbit]

theorem ofWord_eq (n : UInt32) : ofWord n = ofSize n.toNat := by
  rw [ofWord, ofSize, UInt32.toNat_toUSize, toNat_byteCount]

theorem getWord?_eq (s : EntryBits) (b : UInt32) : s.getWord? b = s.get? b.toNat := by
  rw [getWord?, get?, toNat_byteOf, maskOf_eq]

theorem setWord?_eq (s : EntryBits) (b : UInt32) : s.setWord? b = s.set? b.toNat := by
  simp only [setWord?, set?, toNat_byteOf, maskOf_eq]

/-! ## What a set collects -/

/-- **What calls that add the numbers of `l` to the empty set of size `n` come
to.** -/
structure Collects (n : ℕ) (l : List ℕ) (s : EntryBits) : Prop where
  /-- Each call finds its byte, and the last of them leaves `s`. -/
  calls : l.foldlM set? (ofSize n) = some s
  /-- Each number below the size can be asked for then, and is found exactly if it
  was added. -/
  get? : ∀ b < n, s.get? b = some (decide (b ∈ l))
  /-- The set is empty exactly if nothing was added. -/
  isEmpty_iff : s.isEmpty ↔ l = []
  /-- The same calls in words find their bytes too, and have the same answers. -/
  words : ∀ (size : UInt32) (ws : List UInt32), size.toNat = n → ws.map UInt32.toNat = l →
    ws.foldlM setWord? (ofWord size) = some s ∧
      ∀ w < size, s.getWord? w = some (decide (w ∈ ws))

/-- Numbers below the size are collected. -/
theorem collects (h : ∀ b ∈ l, b < n) : Collects n l (l.foldl insert (ofSize n)) := by
  have hcalls : l.foldlM set? (ofSize n) = some (l.foldl insert (ofSize n)) :=
    foldlM_set? fun b hb => room (h b hb)
  have hget : ∀ b < n, (l.foldl insert (ofSize n)).get? b = some (decide (b ∈ l)) := by
    intro b hb
    have hroom : b / 8 < (l.foldl insert (ofSize n)).bytes.size := by
      rw [size_foldl_insert]
      exact room hb
    rw [get?_eq hroom, Option.some_inj, Bool.eq_iff_iff, contains_foldl_ofSize h,
      decide_eq_true_iff]
  refine ⟨hcalls, hget, isEmpty_foldl_ofSize h, ?_⟩
  rintro size ws rfl rfl
  have hset : setWord? = fun s w => s.set? w.toNat := by
    funext s w
    exact setWord?_eq s w
  refine ⟨?_, fun w hw => ?_⟩
  · rw [ofWord_eq, hset, ← List.foldlM_map]
    exact hcalls
  · have hmem : w.toNat ∈ ws.map UInt32.toNat ↔ w ∈ ws := by simp [UInt32.toNat_inj]
    rw [getWord?_eq, hget w.toNat (UInt32.lt_iff_toNat_lt.1 hw), Option.some_inj,
      decide_eq_decide, hmem]

/-- **A set is known by what was added to it:** calls that add numbers below its
size all find their bytes, what is found in the set is what was added, and two
sets of one size are equal exactly if the same numbers were added to them, in
whatever order and however often. -/
theorem collects_extensional (h : ∀ b ∈ l, b < n) (h' : ∀ b ∈ l', b < n) :
    ∃ s s', Collects n l s ∧ Collects n l' s' ∧ (s = s' ↔ ∀ b, b ∈ l ↔ b ∈ l') :=
  ⟨_, _, collects h, collects h', foldl_ofSize_eq_iff h h'⟩

/-- Two numbers in two bytes, added in two orders; and the last number of the
largest size that a word can tell. -/
theorem ends_collected :
    (∀ b ∈ [0, 9], b < 10) ∧ (∀ b ∈ [9, 0, 9], b < 10) ∧
      (∃ s, Collects 10 [0, 9] s ∧ Collects 10 [9, 0, 9] s ∧
        s.toBinary = "00000010_00000001") ∧
      ∃ s, [4294967294, 0].foldlM setWord? (ofWord 4294967295) = some s ∧
        s.getWord? 4294967294 = some true ∧ s.getWord? 4294967293 = some false := by
  have h : ∀ b ∈ [0, 9], b < 10 := by decide
  have h' : ∀ b ∈ [9, 0, 9], b < 10 := by decide
  have hlast : ∀ b ∈ [4294967294, 0], b < 4294967295 := by decide
  refine ⟨h, h', ?_, ?_⟩
  · obtain ⟨s, s', hs, hs', heq⟩ := collects_extensional h h'
    obtain rfl : s = s' := heq.2 (by simp)
    have hrun : [0, 9].foldlM set? (ofSize 10) = some ⟨#[1, 2]⟩ := by decide
    obtain rfl := Option.some_inj.1 (hs.calls.symm.trans hrun)
    exact ⟨_, hs, hs', by decide +kernel⟩
  · obtain ⟨s, -, hs, -, -⟩ := collects_extensional hlast hlast
    obtain ⟨hcalls, hget⟩ := hs.words 4294967295 [4294967294, 0] rfl rfl
    exact ⟨s, hcalls, (hget _ (by decide)).trans (congrArg some (by decide)),
      (hget _ (by decide)).trans (congrArg some (by decide))⟩

end DepBundle.EntryBits
