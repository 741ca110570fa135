/-!
# Chunks — sets of entries

The set of entries that reach a module, packed eight to a byte. Modules
are grouped by these sets, so two sets of one size are equal exactly when
their bytes are.
-/

namespace DepBundle

/-- A set of entry numbers, the number `b` at bit `b % 8` of byte `b / 8`. -/
structure EntryBits where
  /-- The bytes, lowest numbers first. -/
  bytes : Array UInt8
deriving DecidableEq, Repr, Inhabited, Hashable

namespace EntryBits

/-- The empty set, with room for the numbers below `n`. -/
def ofSize (n : Nat) : EntryBits := ⟨Array.replicate ((n + 7) / 8) 0⟩

/-- The byte that holds only the bit of number `b`. -/
def mask (b : Nat) : UInt8 := 1 <<< UInt8.ofNat (b % 8)

/-- Whether number `b` is in the set; `none` where there is no room for it. -/
def get? (s : EntryBits) (b : Nat) : Option Bool :=
  s.bytes[b / 8]?.map fun byte => byte &&& mask b != 0

/-- The set with number `b` added; `none` where there is no room for it. -/
def set? (s : EntryBits) (b : Nat) : Option EntryBits :=
  if h : b / 8 < s.bytes.size then some ⟨s.bytes.set (b / 8) (s.bytes[b / 8] ||| mask b)⟩
  else none

/-- Whether number `b` has room and is in the set. -/
def contains (s : EntryBits) (b : Nat) : Bool := (s.get? b).getD false

/-- The set with number `b` added where there is room for it. -/
def insert (s : EntryBits) (b : Nat) : EntryBits := (s.set? b).getD s

/-- Whether no number is in the set. -/
def isEmpty (s : EntryBits) : Bool := s.bytes.all (· == 0)

/-- The binary digits of a byte, highest first. -/
def digits (byte : UInt8) : List Char :=
  (List.range 8).reverse.map fun i => if byte.toNat.testBit i then '1' else '0'

/-- The set as binary digits, highest numbers first, with `_` between bytes. -/
def toBinary (s : EntryBits) : String :=
  "_".intercalate (s.bytes.toList.reverse.map fun byte => String.ofList (digits byte))

end EntryBits

end DepBundle
