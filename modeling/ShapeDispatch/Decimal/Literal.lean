import ShapeDispatch.Decimal.Binary64
import ShapeDispatch.Text.Reading

/-!
Decimal literals: digits with an optional fraction and an optional exponent, and the double nearest
to the number they write.
-/

namespace ShapeDispatch.Decimal
open ShapeDispatch.Text

/-- The parts of an unsigned number as written. -/
structure Literal where
  /-- The digits before the point. -/
  whole : List Char
  /-- The digits behind the point. -/
  fraction : Option (List Char)
  /-- Whether the exponent is negative, and its digits. -/
  exponent : Option (Bool × List Char)

def digitValue (c : Char) : Nat := c.toNat - '0'.toNat

/-- The number that digits write. -/
def ofDigits (digits : List Char) : Nat := digits.foldl (fun n c => n * 10 + digitValue c) 0

namespace Literal

/-- Reads the part behind the mark of an exponent. -/
def exponentPart : Reading (Bool × List Char) := do
  let minus ← Reading.optionally '-'
  if !minus then
    let _ ← Reading.optionally '+'
  pure (minus, ← Reading.someRun Char.isDigit)

/-- Reads a literal, with at least one digit wherever digits are announced. -/
def reading : Reading Literal := do
  let whole ← Reading.someRun Char.isDigit
  let pointed ← Reading.optionally '.'
  let fraction ← if pointed then some <$> Reading.someRun Char.isDigit else pure none
  let small ← Reading.optionally 'e'
  let marked ← if small then pure true else Reading.optionally 'E'
  let exponent ← if marked then some <$> exponentPart else pure none
  pure ⟨whole, fraction, exponent⟩

/-- Whether the digits before the point begin with a zero that could be left out. -/
def hasLeadingZero (l : Literal) : Bool := l.whole.head? == some '0' && l.whole.length != 1

/-- The exponent of the last digit. -/
def scale (l : Literal) : Int :=
  let written : Int := match l.exponent with
    | none => 0
    | some (minus, digits) => if minus then -(ofDigits digits : Int) else ofDigits digits
  written - (l.fraction.getD []).length

/-- The double nearest to the number. -/
def toFloat (l : Literal) (negative : Bool) : Float :=
  Binary64.ofDecimal negative (ofDigits (l.whole ++ l.fraction.getD [])) l.scale

end Literal

end ShapeDispatch.Decimal
