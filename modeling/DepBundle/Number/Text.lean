import DepBundle.Json.Token
import DepBundle.Number.Double
/-!
# Numbers — numerals

The double that a numeral of a program stands for, and the texts a double
is written as: in full, with powers of ten for the very large and small,
and as short as can be.
-/

namespace DepBundle.Number

/-- The number that digits of a base stand for; what is no digit is passed
over. -/
def ofDigits (base : Nat) (cs : List Char) : Nat :=
  cs.foldl (fun n c => match Json.hexValue? c with
    | some v => n * base + v
    | none => n) 0

/-- The quotient that a decimal numeral stands for. -/
def decimalQuotient (cs : List Char) : Nat × Nat :=
  let mantissa := cs.takeWhile fun c => c != 'e' && c != 'E'
  let exponent := cs.drop (mantissa.length + 1)
  let whole := mantissa.takeWhile (· != '.')
  let fraction := (mantissa.drop (whole.length + 1)).filter Char.isDigit
  let magnitude := ofDigits 10 (exponent.filter Char.isDigit)
  let power : Int := if exponent.head? = some '-' then -(magnitude : Int) else magnitude
  shifted (ofDigits 10 (whole ++ fraction)) 1 (power - fraction.length)

/-- The double a numeral stands for; nothing where that is infinite. -/
def ofNumeral (text : String) : Option Double :=
  match text.toList with
  | '0' :: c :: cs =>
    if c = 'x' || c = 'X' then round (ofDigits 16 cs) 1
    else if c = 'o' || c = 'O' then round (ofDigits 8 cs) 1
    else if c = 'b' || c = 'B' then round (ofDigits 2 cs) 1
    else if (c :: cs).all fun d => '0' ≤ d && d ≤ '7' then round (ofDigits 8 (c :: cs)) 1
    else let (a, b) := decimalQuotient ('0' :: c :: cs); round a b
  | cs => let (a, b) := decimalQuotient cs; round a b

/-- The digits of a decimal. -/
def Decimal.text (d : Decimal) : List Char := Nat.toDigits 10 d.digits

/-- Digits with the point after the given number of them. -/
def pointed (digits : List Char) (place : Int) : List Char :=
  if place ≤ 0 then '0' :: '.' :: List.replicate place.natAbs '0' ++ digits
  else if (digits.length : Int) ≤ place then
    digits ++ List.replicate (place.toNat - digits.length) '0'
  else digits.take place.toNat ++ '.' :: digits.drop place.toNat

/-- A double written in full. -/
def full (d : Double) : String :=
  if d.mantissa = 0 then "0"
  else let s := shortest d; String.ofList (pointed s.text s.power)

/-- A double with powers of ten from twenty-one digits before the point, or
six zeros behind it, on. -/
def plain (d : Double) : String :=
  if d.mantissa = 0 then "0"
  else
    let s := shortest d
    if -6 < s.power && s.power ≤ 21 then String.ofList (pointed s.text s.power)
    else
      let sign := if 0 < s.power then "e+" else "e-"
      let digits := match s.text with
        | [c] => [c]
        | c :: cs => c :: '.' :: cs
        | [] => []
      String.ofList digits ++ sign ++ toString (s.power - 1).natAbs

/-- Whether a double is a whole number. -/
def isWhole (d : Double) : Bool := let (a, b) := d.quotient; a % b == 0

/-- The shorter of a text and one that may replace it. -/
def shorter (text candidate : List Char) : List Char :=
  if candidate.length < text.length then candidate else text

/-- Zeros at the end as a power of ten. -/
def foldZeros (cs : List Char) : List Char :=
  let zeros := (cs.reverse.takeWhile (· == '0')).length
  if zeros = 0 then cs
  else shorter cs (cs.take (cs.length - zeros) ++ 'e' :: (toString zeros).toList)

/-- Zeros behind a leading point as a power of ten. -/
def foldFraction (cs : List Char) : List Char :=
  match cs with
  | '.' :: '0' :: rest =>
    let zeros := (rest.takeWhile (· == '0')).length + 1
    let digits := rest.drop (zeros - 1)
    shorter cs (digits ++ 'e' :: '-' :: (toString (digits.length + zeros)).toList)
  | _ => cs

/-- A point before a power of ten moved to the end. -/
def foldPoint (cs : List Char) : List Char :=
  let whole := cs.takeWhile (· != '.')
  match cs.drop whole.length with
  | '.' :: rest =>
    let fraction := rest.takeWhile (· != 'e')
    match rest.drop fraction.length with
    | 'e' :: exponent =>
      let magnitude := ofDigits 10 (exponent.filter Char.isDigit)
      let power : Int := if exponent.head? = some '-' then -(magnitude : Int) else magnitude
      shorter cs (whole ++ fraction ++ 'e' :: (toString (power - fraction.length)).toList)
    | _ => cs
  | _ => cs

/-- A double written as short as can be. Whole numbers below a thousand
are written in full. -/
def brief (d : Double) : String :=
  let (a, b) := d.quotient
  if isWhole d && a / b < 1000 then plain d
  else
    let cs := (plain d).toList
    let cs := match cs with
      | '0' :: '.' :: rest => '.' :: rest
      | cs => cs
    let cs := cs.filter (· != '+')
    let hex := '0' :: 'x' :: Nat.toDigits 16 (min (a / b) (Nat.pow 2 128 - 1))
    if isWhole d && hex.length < cs.length then String.ofList hex
    else String.ofList (foldPoint (foldZeros (if isWhole d then cs else foldFraction cs)))

end DepBundle.Number
