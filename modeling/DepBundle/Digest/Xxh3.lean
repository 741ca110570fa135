/-!
# Digests — XXH3, 128 bits

The XXH3 hash of a byte string, without a seed and with the standard
secret. Inputs of up to 16, 128 and 240 bytes each have a route of their
own; longer ones run through eight accumulators, a stripe of 64 bytes at a
time.
-/

namespace DepBundle.Digest.Xxh3

/-- The standard secret. -/
def secret : ByteArray := ⟨#[
  0xb8, 0xfe, 0x6c, 0x39, 0x23, 0xa4, 0x4b, 0xbe, 0x7c, 0x01, 0x81, 0x2c, 0xf7, 0x21, 0xad, 0x1c,
  0xde, 0xd4, 0x6d, 0xe9, 0x83, 0x90, 0x97, 0xdb, 0x72, 0x40, 0xa4, 0xa4, 0xb7, 0xb3, 0x67, 0x1f,
  0xcb, 0x79, 0xe6, 0x4e, 0xcc, 0xc0, 0xe5, 0x78, 0x82, 0x5a, 0xd0, 0x7d, 0xcc, 0xff, 0x72, 0x21,
  0xb8, 0x08, 0x46, 0x74, 0xf7, 0x43, 0x24, 0x8e, 0xe0, 0x35, 0x90, 0xe6, 0x81, 0x3a, 0x26, 0x4c,
  0x3c, 0x28, 0x52, 0xbb, 0x91, 0xc3, 0x00, 0xcb, 0x88, 0xd0, 0x65, 0x8b, 0x1b, 0x53, 0x2e, 0xa3,
  0x71, 0x64, 0x48, 0x97, 0xa2, 0x0d, 0xf9, 0x4e, 0x38, 0x19, 0xef, 0x46, 0xa9, 0xde, 0xac, 0xd8,
  0xa8, 0xfa, 0x76, 0x3f, 0xe3, 0x9c, 0x34, 0x3f, 0xf9, 0xdc, 0xbb, 0xc7, 0xc7, 0x0b, 0x4f, 0x1d,
  0x8a, 0x51, 0xe0, 0x4b, 0xcd, 0xb4, 0x59, 0x31, 0xc8, 0x9f, 0x7e, 0xc9, 0xd9, 0x78, 0x73, 0x64,
  0xea, 0xc5, 0xac, 0x83, 0x34, 0xd3, 0xeb, 0xc3, 0xc5, 0x81, 0xa0, 0xff, 0xfa, 0x13, 0x63, 0xeb,
  0x17, 0x0d, 0xdd, 0x51, 0xb7, 0xf0, 0xda, 0x49, 0xd3, 0x16, 0x55, 0x26, 0x29, 0xd4, 0x68, 0x9e,
  0x2b, 0x16, 0xbe, 0x58, 0x7d, 0x47, 0xa1, 0xfc, 0x8f, 0xf8, 0xb8, 0xd1, 0x7a, 0xd0, 0x31, 0xce,
  0x45, 0xcb, 0x3a, 0x8f, 0x95, 0x16, 0x04, 0x28, 0xaf, 0xd7, 0xfb, 0xca, 0xbb, 0x4b, 0x40, 0x7e]⟩

/-! ## Constants -/

def prime32a : UInt64 := 0x9E3779B1
def prime32b : UInt64 := 0x85EBCA77
def prime32c : UInt64 := 0xC2B2AE3D
def prime64a : UInt64 := 0x9E3779B185EBCA87
def prime64b : UInt64 := 0xC2B2AE3D27D4EB4F
def prime64c : UInt64 := 0x165667B19E3779F9
def prime64d : UInt64 := 0x85EBCA77C2B2AE63
def prime64e : UInt64 := 0x27D4EB2F165667C5
def mixA : UInt64 := 0x165667919E3779F9
def mixB : UInt64 := 0x9FB21C651E98DF25

/-! ## Words -/

/-- The number in the `count` bytes at `i`, lowest byte first. -/
def read (b : ByteArray) (i count : Nat) : UInt64 :=
  (List.range count).foldr (fun k acc => acc <<< 8 ||| (b.data.getD (i + k) 0).toUInt64) 0

/-- The 64-bit word at `i`. -/
def word (b : ByteArray) (i : Nat) : UInt64 := read b i 8

/-- The 32-bit word at `i`. -/
def half (b : ByteArray) (i : Nat) : UInt64 := read b i 4

/-- The last 32 bits of a word. -/
def low32 (x : UInt64) : UInt64 := x &&& 0xFFFFFFFF

/-- The lowest `count` bytes of a word in the opposite order. -/
def swap (count : Nat) (x : UInt64) : UInt64 :=
  (List.range count).foldl (fun acc k => acc <<< 8 ||| (x >>> (8 * UInt64.ofNat k) &&& 0xFF)) 0

/-- A 128-bit number as its low and high words. -/
structure Wide where
  low : UInt64
  high : UInt64

/-- The full product of two words. -/
def multiply (x y : UInt64) : Wide :=
  let product := x.toNat * y.toNat
  ⟨UInt64.ofNat product, UInt64.ofNat (product / Nat.pow 2 64)⟩

/-- The two words of the full product, folded into one. -/
def fold (x y : UInt64) : UInt64 := let p := multiply x y; p.low ^^^ p.high

/-- A word combined with itself shifted right. -/
def shifted (x : UInt64) (n : UInt64) : UInt64 := x ^^^ (x >>> n)

/-- The last mixing of a word on the longer routes. -/
def avalanche (h : UInt64) : UInt64 := shifted (shifted h 37 * mixA) 32

/-- The last mixing of a word on the shortest routes. -/
def avalancheShort (h : UInt64) : UInt64 :=
  shifted (shifted (shifted h 33 * prime64b) 29 * prime64c) 32

/-! ## Up to 16 bytes -/

/-- No byte at all. -/
def hashEmpty : Wide :=
  ⟨avalancheShort (word secret 64 ^^^ word secret 72),
   avalancheShort (word secret 80 ^^^ word secret 88)⟩

/-- One to three bytes. -/
def hashUpTo3 (b : ByteArray) : Wide :=
  let n := b.size
  let at' (i : Nat) : UInt64 := read b i 1
  let low := at' 0 <<< 16 ||| at' (n / 2) <<< 24 ||| at' (n - 1) ||| UInt64.ofNat n <<< 8
  let swapped := swap 4 low
  let high := low32 (swapped <<< 13) ||| swapped >>> 19
  ⟨avalancheShort (low ^^^ (half secret 0 ^^^ half secret 4)),
   avalancheShort (high ^^^ (half secret 8 ^^^ half secret 12))⟩

/-- Four to eight bytes. -/
def hashUpTo8 (b : ByteArray) : Wide :=
  let n := b.size
  let input := half b 0 + half b (n - 4) <<< 32
  let keyed := input ^^^ (word secret 16 ^^^ word secret 24)
  let m := multiply keyed (prime64a + UInt64.ofNat n <<< 2)
  let high := m.high + m.low <<< 1
  let low := m.low ^^^ (high >>> 3)
  ⟨shifted (shifted low 35 * mixB) 28, avalanche high⟩

/-- Nine to sixteen bytes. -/
def hashUpTo16 (b : ByteArray) : Wide :=
  let n := b.size
  let first := word b 0
  let last := word b (n - 8)
  let m := multiply (first ^^^ last ^^^ (word secret 32 ^^^ word secret 40)) prime64a
  let low := m.low + UInt64.ofNat (n - 1) <<< 54
  let keyed := last ^^^ (word secret 48 ^^^ word secret 56)
  let high := m.high + (keyed + low32 keyed * (prime32b - 1))
  let h := multiply (low ^^^ swap 8 high) prime64b
  ⟨avalanche h.low, avalanche (h.high + high * prime64b)⟩

/-! ## Up to 240 bytes -/

/-- Sixteen bytes at `i` mixed with the secret at `s`. -/
def mix16 (b : ByteArray) (i s : Nat) : UInt64 :=
  fold (word b i ^^^ word secret s) (word b (i + 8) ^^^ word secret (s + 8))

/-- Two runs of sixteen bytes mixed into the state. -/
def mix32 (b : ByteArray) (acc : Wide) (i j s : Nat) : Wide :=
  ⟨(acc.low + mix16 b i s) ^^^ (word b j + word b (j + 8)),
   (acc.high + mix16 b j (s + 16)) ^^^ (word b i + word b (i + 8))⟩

/-- The digest of the state after the last mixing. -/
def closeMid (n : Nat) (acc : Wide) : Wide :=
  ⟨avalanche (acc.low + acc.high),
   0 - avalanche (acc.low * prime64a + acc.high * prime64d + UInt64.ofNat n * prime64b)⟩

/-- The state before any mixing. -/
def openMid (n : Nat) : Wide := ⟨UInt64.ofNat n * prime64a, 0⟩

/-- Seventeen to 128 bytes: pairs of runs from both ends inward, the
innermost first. -/
def hashUpTo128 (b : ByteArray) : Wide :=
  let n := b.size
  let pairs := (List.range 4).filter fun k => k == 0 || n > 32 * k
  closeMid n <| pairs.foldr
    (fun k acc => mix32 b acc (16 * k) (n - 16 * (k + 1)) (32 * k)) (openMid n)

/-- 129 to 240 bytes. -/
def hashUpTo240 (b : ByteArray) : Wide :=
  let n := b.size
  let rounds := n / 32
  let start := (List.range 4).foldl
    (fun acc k => mix32 b acc (32 * k) (32 * k + 16) (32 * k)) (openMid n)
  let start : Wide := ⟨avalanche start.low, avalanche start.high⟩
  let middle := (List.range (rounds - 4)).foldl
    (fun acc k => mix32 b acc (32 * (k + 4)) (32 * (k + 4) + 16) (3 + 32 * k)) start
  closeMid n (mix32 b middle (n - 16) (n - 32) 103)

/-! ## Longer inputs -/

/-- One stripe of 64 bytes at `i` taken into the accumulators, with the
secret at `s`. -/
def accumulate (b : ByteArray) (acc : Array UInt64) (i s : Nat) : Array UInt64 :=
  (List.range 8).foldl (fun acc k =>
    let value := word b (i + 8 * k)
    let key := value ^^^ word secret (s + 8 * k)
    let other := k ^^^ 1
    (acc.modify other (· + value)).modify k (· + low32 key * (key >>> 32))) acc

/-- The accumulators stirred after a block of 1024 bytes. -/
def scramble (acc : Array UInt64) : Array UInt64 :=
  acc.mapIdx fun k x => (shifted x 47 ^^^ word secret (128 + 8 * k)) * prime32a

/-- The stripes `0 … count - 1` of the block at `i`. -/
def accumulateMany (b : ByteArray) (acc : Array UInt64) (i count : Nat) : Array UInt64 :=
  (List.range count).foldl (fun acc k => accumulate b acc (i + 64 * k) (8 * k)) acc

/-- The accumulators folded into one word. -/
def mergeAll (acc : Array UInt64) (s : Nat) (start : UInt64) : UInt64 :=
  avalanche <| (List.range 4).foldl (fun result k =>
    result + fold (acc.getD (2 * k) 0 ^^^ word secret (s + 16 * k))
      (acc.getD (2 * k + 1) 0 ^^^ word secret (s + 16 * k + 8))) start

/-- More than 240 bytes. -/
def hashLong (b : ByteArray) : Wide :=
  let n := b.size
  let blocks := (n - 1) / 1024
  let start := #[prime32c, prime64a, prime64b, prime64c, prime64d, prime32b, prime64e, prime32a]
  let acc := (List.range blocks).foldl
    (fun acc k => scramble (accumulateMany b acc (1024 * k) 16)) start
  let acc := accumulateMany b acc (1024 * blocks) ((n - 1 - 1024 * blocks) / 64)
  let acc := accumulate b acc (n - 64) 121
  ⟨mergeAll acc 11 (UInt64.ofNat n * prime64a),
   mergeAll acc 117 (~~~(UInt64.ofNat n * prime64b))⟩

/-- The 128-bit hash of a byte string. -/
def hash (b : ByteArray) : Wide :=
  let n := b.size
  if n = 0 then hashEmpty
  else if n ≤ 3 then hashUpTo3 b
  else if n ≤ 8 then hashUpTo8 b
  else if n ≤ 16 then hashUpTo16 b
  else if n ≤ 128 then hashUpTo128 b
  else if n ≤ 240 then hashUpTo240 b
  else hashLong b

/-- The eight bytes of a word, lowest first. -/
def bytesOf (x : UInt64) : List UInt8 :=
  (List.range 8).map fun k => (x >>> (8 * UInt64.ofNat k)).toUInt8

/-- The sixteen bytes of the hash, lowest first. -/
def digest (b : ByteArray) : List UInt8 := let h := hash b; bytesOf h.low ++ bytesOf h.high

end DepBundle.Digest.Xxh3
