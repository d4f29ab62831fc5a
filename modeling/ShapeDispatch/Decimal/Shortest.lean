import ShapeDispatch.Decimal.Binary64

/-!
The shortest decimal of a double: of all decimals that are read back as the double, one with the
fewest digits, and of those the nearest to the exact value. The reals that are read back form an
interval around the value, which takes part in its ends if the mantissa is even. On the grid of the
multiples of a power of ten, only the value's two neighbours have to be tried.
-/

namespace ShapeDispatch

/-- The number `digits * 10 ^ exponent`. -/
structure Decimal where
  digits : Nat
  exponent : Int
  deriving DecidableEq, Repr

namespace Decimal

/-- The number of decimal digits, none for zero. -/
def digitCount (n : Nat) : Nat := if n = 0 then 0 else digitCount (n / 10) + 1

/-- The least `k` with `num / den < 10 ^ k`, for positive `num` and `den`. -/
def magnitude (num den : Nat) : Int :=
  if den ≤ num then digitCount (num / den)
  else 1 - (digitCount ((den + num - 1) / num - 1) : Int)

/-- A double's value and the ends of its interval, as numerators over one denominator. -/
structure Interval where
  low : Nat
  value : Nat
  high : Nat
  den : Nat
  closed : Bool
  deriving Repr

/-- The interval of the reals that are read back as `mantissa * 2 ^ exponent`. Its lower half is
narrower where the doubles below lie closer together. -/
def Interval.ofBinary (mantissa : Nat) (exponent : Int) : Interval :=
  let below := if mantissa = Binary64.normalMantissa ∧ -1074 < exponent then 1 else 2
  let unit := if 2 ≤ exponent then Nat.pow 2 (exponent - 2).toNat else 1
  let den := if 2 ≤ exponent then 1 else Nat.pow 2 (2 - exponent).toNat
  { low := (4 * mantissa - below) * unit
    value := 4 * mantissa * unit
    high := (4 * mantissa + 2) * unit
    den := den
    closed := mantissa % 2 = 0 }

/-- Whether `n` lies in the interval, for an interval of denominator one. -/
def Interval.holds (i : Interval) (n : Nat) : Bool :=
  let n := n * i.den
  if i.closed then i.low ≤ n ∧ n ≤ i.high else i.low < n ∧ n < i.high

/-- The interval measured in units of `10 ^ exponent`. -/
def Interval.inUnits (i : Interval) (exponent : Int) : Interval :=
  let up := if exponent < 0 then Nat.pow 10 (-exponent).toNat else 1
  let down := if exponent < 0 then 1 else Nat.pow 10 exponent.toNat
  { i with low := i.low * up, value := i.value * up, high := i.high * up, den := i.den * down }

/-- The whole number of the interval that is nearest to the value, the greater one in a tie. -/
def Interval.nearestWhole? (i : Interval) : Option Nat :=
  let down := i.value / i.den
  let rest := i.value % i.den
  match i.holds down, i.holds (down + 1) with
  | true, true => some (if 2 * rest < i.den then down else down + 1)
  | true, false => some down
  | false, true => some (down + 1)
  | false, false => none

/-- Moves the zeros at the end of the digits, at most `count` of them, into the exponent. -/
def dropZeros : Nat → Decimal → Decimal
  | 0, d => d
  | count + 1, d =>
    if d.digits % 10 = 0 then dropZeros count ⟨d.digits / 10, d.exponent + 1⟩ else d

/-- The shortest decimal of `mantissa * 2 ^ exponent`, for a positive mantissa: the coarsest grid
that meets the interval decides. Seventeen digits always suffice. -/
def shortest (mantissa : Nat) (exponent : Int) : Decimal :=
  let i := Interval.ofBinary mantissa exponent
  let top := magnitude i.value i.den
  let found := (List.range 17).findSome? (fun (n : Nat) =>
    let grid := top - 1 - (n : Int)
    (i.inUnits grid).nearestWhole?.map (fun digits => (⟨digits, grid⟩ : Decimal)))
  dropZeros 17 (found.getD ⟨0, 0⟩)

/-- The digits written out, without an exponent and without a point in whole numbers. -/
def positional (d : Decimal) : String :=
  let digits := d.digits.repr
  let count := digits.length
  if 0 ≤ d.exponent then digits ++ String.ofList (List.replicate d.exponent.toNat '0')
  else
    let places := (-d.exponent).toNat
    if places < count then
      let cs := digits.toList
      String.ofList (cs.take (count - places) ++ '.' :: cs.drop (count - places))
    else "0." ++ String.ofList (List.replicate (places - count) '0') ++ digits

/-- The text of a double: its shortest decimal, never with an exponent. -/
def textOfFloat (x : Float) : String :=
  match Binary64.ofFloat x with
  | .nan => "NaN"
  | .infinite negative => if negative then "-inf" else "inf"
  | .finite negative mantissa exponent =>
    let text := if mantissa = 0 then "0" else (shortest mantissa exponent).positional
    if negative then "-" ++ text else text

end Decimal

end ShapeDispatch
