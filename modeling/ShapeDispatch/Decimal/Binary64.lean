/-!
Double-precision numbers as exact values `mantissa * 2 ^ exponent`, and the double nearest to a
fraction, a tie going to the even mantissa.
-/

namespace ShapeDispatch

/-- What a double stands for. -/
inductive Binary64 where
  | nan
  | infinite (negative : Bool)
  /-- The number `± mantissa * 2 ^ exponent`. -/
  | finite (negative : Bool) (mantissa : Nat) (exponent : Int)
  deriving DecidableEq, Repr

namespace Binary64

/-- The least mantissa of a number that is not subnormal: a one and 52 zeros. -/
def normalMantissa : Nat := 0x10000000000000

/-- Reads the sign, the biased exponent and the fraction of a double. -/
def ofBits (bits : Nat) : Binary64 :=
  let negative := bits / 0x8000000000000000 % 2 = 1
  let biased : Nat := bits / normalMantissa % 2048
  let fraction := bits % normalMantissa
  if biased = 2047 then if fraction = 0 then .infinite negative else .nan
  else if biased = 0 then .finite negative fraction (-1074)
  else .finite negative (normalMantissa + fraction) ((biased : Int) - 1075)

def ofFloat (x : Float) : Binary64 := ofBits x.toBits.toNat

/-- The whole number nearest to `num / den`, a tie going to the even one. -/
def roundToEven (num den : Nat) : Nat :=
  let whole := num / den
  let rest := num % den
  if 2 * rest < den then whole
  else if den < 2 * rest then whole + 1
  else if whole % 2 = 0 then whole
  else whole + 1

/-- The greatest `e` with `2 ^ e ≤ num / den`, for positive `num` and `den`. -/
def floorLog2 (num den : Nat) : Int :=
  let guess : Int := (num.log2 : Int) - den.log2
  let reached := if 0 ≤ guess then den * Nat.pow 2 guess.toNat ≤ num
    else den ≤ num * Nat.pow 2 (-guess).toNat
  if reached then guess else guess - 1

/-- The bits of the double nearest to `num / den`: an exponent that is too large gives infinity, one
that is too small a subnormal number. -/
def nearestBits (num den : Nat) : Nat :=
  if num = 0 ∨ den = 0 then 0
  else
    let ulp := max (floorLog2 num den - 52) (-1074)
    let mantissa :=
      if 0 ≤ ulp then roundToEven num (den * Nat.pow 2 ulp.toNat)
      else roundToEven (num * Nat.pow 2 (-ulp).toNat) den
    let bits := if mantissa < normalMantissa then mantissa
      else (ulp + 1075).toNat * normalMantissa + (mantissa - normalMantissa)
    min bits (2047 * normalMantissa)

/-- The double nearest to `± num / den`. -/
def nearest (negative : Bool) (num den : Nat) : Float :=
  let magnitude := Float.ofBits (UInt64.ofNat (nearestBits num den))
  if negative then -magnitude else magnitude

/-- The double nearest to `± digits * 10 ^ exponent`. An exponent beyond the reach of doubles is
settled before the power is formed. -/
def ofDecimal (negative : Bool) (digits : Nat) (exponent : Int) : Float :=
  if 0 ≤ exponent then
    if digits = 0 then nearest negative 0 1
    else if 400 < exponent then nearest negative (Nat.pow 10 400) 1
    else nearest negative (digits * Nat.pow 10 exponent.toNat) 1
  else if digits.log2 + 1200 < (-exponent).toNat * 3 then nearest negative 0 1
  else nearest negative digits (Nat.pow 10 (-exponent).toNat)

end Binary64

end ShapeDispatch
