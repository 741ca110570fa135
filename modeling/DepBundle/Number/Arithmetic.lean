import DepBundle.Number.Text
/-!
# Numbers — arithmetic

Sums, remainders and bits of the numbers a program computes with. These
are floats; a float that is neither infinite nor nothing is a double with a
sign.
-/

namespace DepBundle.Number

/-- The magnitude of a float, where it is finite. -/
def magnitude? (x : Float) : Option Double :=
  let bits := x.toBits.toNat % Nat.pow 2 63
  let exponent : Nat := bits / Nat.pow 2 52
  let fraction : Nat := bits % Nat.pow 2 52
  if exponent = 2047 then none
  else if exponent = 0 then some ⟨fraction, -1074⟩
  else some ⟨fraction + Nat.pow 2 52, exponent - 1075⟩

/-- Whether a float has a minus before it. -/
def isNegative (x : Float) : Bool := x < 0

/-- The float that a double is. -/
def Double.toFloat (d : Double) : Float := (Float.ofNat d.mantissa).scaleB d.exponent

/-- Infinity. -/
def infinity : Float := 1.0 / 0.0

/-- What is no number. -/
def notANumber : Float := 0.0 / 0.0

/-- The float that a numeral stands for. -/
def floatOfNumeral (text : String) : Float := ((ofNumeral text).map Double.toFloat).getD infinity

/-- The text of a float. -/
def floatText (x : Float) : String :=
  if x.isNaN then "NaN"
  else
    let written := ((magnitude? x).map plain).getD "Infinity"
    if isNegative x then "-" ++ written else written

/-- The whole number that a float is when what is behind the point is cut
off; zero for what has no end. -/
def wholePart (x : Float) : Int :=
  match magnitude? x with
  | none => 0
  | some d =>
    let (a, b) := d.quotient
    if isNegative x then -((a / b : Nat) : Int) else (a / b : Nat)

/-- The low bits of a float, as bitwise operators see it. -/
def lowBits (x : Float) : BitVec 32 := BitVec.ofInt 32 (wholePart x)

/-- The float of a whole number with a sign in its highest bit. -/
def ofBits (bits : BitVec 32) : Float := Float.ofInt bits.toInt

/-- The remainder of a division that cuts off, with the sign of what is
divided. -/
def remainder (x y : Float) : Float :=
  match magnitude? x, magnitude? y with
  | some a, some b =>
    if b.mantissa = 0 then notANumber
    else
      let exponent := min a.exponent b.exponent
      let rest := (a.mantissa * Nat.pow 2 (a.exponent - exponent).toNat)
        % (b.mantissa * Nat.pow 2 (b.exponent - exponent).toNat)
      let value := (Float.ofNat rest).scaleB exponent
      if isNegative x then -value else value
  | some _, none => if y.isNaN then y else x
  | none, _ => notANumber

end DepBundle.Number
