/-!
# Numbers — doubles and their shortest decimals

A double is a whole number of 53 bits at most, times a power of two.
`round` is the double nearest to a quotient, of two that are as near the
even one. `shortest` is the shortest decimal that rounds to a double, of
several the nearest: a decimal of a given length that does so is one of the
two that enclose the double.
-/

namespace DepBundle.Number

/-- A finite double that is not negative: `mantissa * 2 ^ exponent`. -/
structure Double where
  mantissa : Nat
  exponent : Int
deriving DecidableEq, Repr, Inhabited

/-- `num / den` times a power of two, as a quotient. -/
def scaled (num den : Nat) (power : Int) : Nat × Nat :=
  if 0 ≤ power then (num * Nat.pow 2 power.toNat, den) else (num, den * Nat.pow 2 power.natAbs)

/-- The whole number nearest to a quotient, of two that are as near the
even one. -/
def nearest (num den : Nat) : Nat :=
  let q := num / den
  let twice := 2 * (num % den)
  if twice < den then q
  else if den < twice then q + 1
  else if q % 2 = 0 then q else q + 1

/-- The double nearest to a quotient; nothing where that is infinite. -/
def round (num den : Nat) : Option Double :=
  if num = 0 then some ⟨0, -1074⟩
  else
    let guess : Int := (Nat.log2 num : Int) - Nat.log2 den
    let (a, b) := scaled num den (-guess)
    let magnitude := if a < b then guess - 1 else guess
    let exponent := max (magnitude - 52) (-1074)
    let (a, b) := scaled num den (-exponent)
    let m := nearest a b
    let (m, exponent) := if m = Nat.pow 2 53 then (Nat.pow 2 52, exponent + 1) else (m, exponent)
    if 971 < exponent then none else some ⟨m, exponent⟩

/-- A decimal: digits without a leading zero, to be read behind the point,
times a power of ten. -/
structure Decimal where
  digits : Nat
  count : Nat
  power : Int
deriving DecidableEq, Repr

/-- The quotient that a double is. -/
def Double.quotient (d : Double) : Nat × Nat := scaled d.mantissa 1 d.exponent

/-- `num / den` times a power of ten, as a quotient. -/
def shifted (num den : Nat) (power : Int) : Nat × Nat :=
  if 0 ≤ power then (num * Nat.pow 10 power.toNat, den) else (num, den * Nat.pow 10 power.natAbs)

/-- The power of ten above a quotient: the least from `low` on that exceeds
it, within `fuel` steps. -/
def tenAbove (num den : Nat) : (fuel : Nat) → (low : Int) → Int
  | 0, low => low
  | n + 1, low =>
    let (a, b) := shifted num den (-low)
    if a < b then low else tenAbove num den n (low + 1)

/-- The decimals of `count` digits on either side of a double that round to
it, the nearer one first. -/
def enclosing (d : Double) (power : Int) (count : Nat) : List Nat :=
  let (num, den) := d.quotient
  let (a, b) := shifted num den (count - power)
  let low := a / b
  let order := if 2 * (a % b) ≤ b then [low, low + 1] else [low + 1, low]
  order.filter fun n =>
    let (x, y) := shifted n 1 (power - count)
    round x y == some d

/-- The shortest decimal that rounds to a double other than zero. -/
def shortest (d : Double) : Decimal :=
  let (num, den) := d.quotient
  let low : Int := ((Nat.log2 num : Int) - Nat.log2 den - 1) * 30103 / 100000 - 1
  let power := tenAbove num den 8 low
  let found := (List.range 17).findSome? fun i =>
    (enclosing d power (i + 1)).head?.map fun n => (n, i + 1)
  let (n, count) := found.getD (0, 1)
  if n = Nat.pow 10 count then ⟨1, 1, power + 1⟩ else ⟨n, count, power⟩

end DepBundle.Number
