import ShapeDispatch.Decimal.Literal

/-!
The numbers of JSON text. A number is read in double precision and not exactly: its digits are
gathered in a 64-bit significand for as long as they fit, and the significand is scaled by a power of
ten in one multiplication or division, or in several where the power is beyond the range of doubles.
-/

namespace ShapeDispatch.Json
open ShapeDispatch.Text ShapeDispatch.Decimal

/-- The largest significand. -/
def significandLimit : Nat := 0xffffffffffffffff

/-- The largest exponent that is written out in a number. -/
def exponentLimit : Nat := 0x7fffffff

/-- The exponent of the greatest power of ten among the doubles. -/
def scaleLimit : Nat := 308

/-- The significand and how many digits went into it: digits are taken for as long as the result
stays within the limit. -/
def gather (significand taken : Nat) : List Char → Nat × Nat
  | [] => (significand, taken)
  | c :: rest =>
    let longer := significand * 10 + digitValue c
    if significandLimit < longer then (significand, taken) else gather longer (taken + 1) rest

/-- The power of ten as a double. -/
def powerOfTen (n : Nat) : Float := Binary64.nearest false (Nat.pow 10 n) 1

/-- Divides by a power of ten, by the greatest one as long as the rest of the exponent is out of
range. -/
def scaleDown (f : Float) (exponent : Nat) : Float :=
  if scaleLimit < exponent then
    if f == 0 then f else scaleDown (f / powerOfTen scaleLimit) (exponent - scaleLimit)
  else f / powerOfTen exponent
termination_by exponent
decreasing_by
  have : 0 < scaleLimit := by decide
  omega

/-- Multiplies by a power of ten; a result out of range is none. -/
def scaleUp? (f : Float) (exponent : Nat) : Option Float :=
  if scaleLimit < exponent then if f == 0 then some f else none
  else
    let scaled := f * powerOfTen exponent
    if scaled.isInf then none else some scaled

/-- The double `significand * 10 ^ exponent`, formed by scaling. -/
def scale? (significand : Nat) (exponent : Int) : Option Float :=
  let f := (UInt64.ofNat significand).toFloat
  if 0 ≤ exponent then scaleUp? f exponent.toNat
  else some (scaleDown f (-exponent).toNat)

/-- The significand of a literal and its exponent before the written one is added. Digits before the
point that no longer fit count as zeros, digits behind it are dropped. -/
def significand (l : Literal) : Nat × Int :=
  let (whole, taken) := gather 0 0 l.whole
  let (all, places) := gather whole 0 (l.fraction.getD [])
  (all, (l.whole.length - taken : Int) - places)

/-- The double that a literal means, or none if it is out of range. An exponent beyond the limit is
not even added up. -/
def magnitude? (l : Literal) : Option Float :=
  let (digits, start) := significand l
  match l.exponent with
  | none => scale? digits start
  | some (minus, written) =>
    let n := ofDigits written
    if exponentLimit < n then if digits ≠ 0 ∧ !minus then none else some 0
    else scale? digits (if minus then start - n else start + n)

/-- Reads a number. -/
def number : Reading Float := do
  let negative ← Reading.optionally '-'
  let literal ← Literal.reading
  if literal.hasLeadingZero then Reading.refuse
  match magnitude? literal with
  | none => Reading.refuse
  | some f => pure (if negative then -f else f)

end ShapeDispatch.Json
