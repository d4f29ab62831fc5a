import ShapeDispatch.Decimal.Literal
import ShapeDispatch.Toml.Basic
import ShapeDispatch.Toml.Text

/-!
Single TOML values: whole numbers in four bases, floats, dates and times, truth values.
-/

namespace ShapeDispatch.Toml
open ShapeDispatch.Text ShapeDispatch.Decimal

/-- A reading that may find nothing. -/
def perhaps {α : Type} (reading : Reading α) : Reading (Option α) :=
  Reading.orElse (some <$> reading) (pure none)

/-- Reads digits, between which single underscores may stand. -/
def digitGroups (isDigit : Char → Bool) : Reading (List Char) := do
  let groups ← Reading.chain (Reading.someRun isDigit) (Reading.optionally '_')
  pure groups.flatten

/-- Reads a sign; negative numbers have a minus. -/
def sign : Reading Bool := do
  if ← Reading.optionally '-' then pure true
  else do
    let _ ← Reading.optionally '+'
    pure false

/-- Reads decimal digits without a zero that could be left out. -/
def wholePart : Reading (List Char) := do
  let digits ← digitGroups Char.isDigit
  if digits.head? = some '0' ∧ digits.length ≠ 1 then Reading.refuse
  pure digits

/-- Reads a fraction behind its point. -/
def fraction : Reading (List Char) := do
  Reading.char '.'
  digitGroups Char.isDigit

/-- Reads an exponent with its mark. -/
def exponent : Reading (Bool × List Char) := do
  let _ ← Reading.satisfying (fun c => c == 'e' || c == 'E')
  let negative ← sign
  pure (negative, ← digitGroups Char.isDigit)

/-- Reads a number with a fraction or an exponent, which must not be too large for a double. -/
def decimalFloat : Reading Float := do
  let negative ← sign
  let whole ← wholePart
  let fraction ← perhaps fraction
  let exponent ← perhaps exponent
  if fraction.isNone ∧ exponent.isNone then Reading.refuse
  let f := (Literal.mk whole fraction exponent).toFloat negative
  if f.isInf ∧ !negative then Reading.refuse
  pure f

/-- Reads infinity or not-a-number. -/
def specialFloat : Reading Float := do
  let negative ← sign
  let magnitude ← Reading.orElse
    (do Reading.exactly "inf".toList; pure (1.0 / 0.0 : Float))
    (do Reading.exactly "nan".toList; pure (0.0 / 0.0 : Float))
  pure (if negative then -magnitude else magnitude)

/-- The number that digits of a base write. -/
def ofHexDigits (base : Nat) (digits : List Char) : Nat :=
  digits.foldl (fun n c => n * base + (hexValue? c).getD 0) 0

/-- The whole number, if it fits into 64 bits with a sign. -/
def inRange (n : Int) : Reading Int :=
  if -0x8000000000000000 ≤ n ∧ n < 0x8000000000000000 then pure n else Reading.refuse

/-- Reads a whole number behind the mark of its base. -/
def basedInteger (mark : Char) (base : Nat) : Reading Int := do
  Reading.exactly ['0', mark]
  let isDigit (c : Char) : Bool := (hexValue? c).any (fun digit => digit < base)
  inRange (ofHexDigits base (← digitGroups isDigit))

/-- Reads a whole number. -/
def integer : Reading Int :=
  Reading.orElse (basedInteger 'x' 16) (Reading.orElse (basedInteger 'o' 8)
    (Reading.orElse (basedInteger 'b' 2) (do
      let negative ← sign
      let magnitude : Int := ofDigits (← wholePart)
      inRange (if negative then -magnitude else magnitude))))

/-- Reads a number of exactly `count` digits between two bounds. -/
def fixedDigits (count low high : Nat) : Reading Nat := do
  let digits ← (List.replicate count ()).mapM (fun _ => Reading.satisfying Char.isDigit)
  let n := ofDigits digits
  if low ≤ n ∧ n ≤ high then pure n else Reading.refuse

/-- The number in decimal with at least `width` digits. -/
def padded (width n : Nat) : String :=
  let digits := n.repr
  String.ofList (List.replicate (width - digits.length) '0') ++ digits

def isLeapYear (year : Nat) : Bool := year % 4 == 0 && (year % 100 != 0 || year % 400 == 0)

def daysIn (year month : Nat) : Nat :=
  if month = 2 then if isLeapYear year then 29 else 28
  else if month = 4 ∨ month = 6 ∨ month = 9 ∨ month = 11 then 30
  else 31

/-- Reads a date. -/
def date : Reading String := do
  let year ← fixedDigits 4 0 9999
  Reading.char '-'
  let month ← fixedDigits 2 1 12
  Reading.char '-'
  let day ← fixedDigits 2 1 (daysIn year month)
  pure (padded 4 year ++ "-" ++ padded 2 month ++ "-" ++ padded 2 day)

/-- Reads a fraction of a second: nine places count, and zeros at their end are left out. -/
def secondFraction : Reading String := do
  Reading.char '.'
  let digits ← Reading.someRun Char.isDigit
  let kept := ((digits.take 9).reverse.dropWhile (fun c => c == '0')).reverse
  pure (if kept.isEmpty then "" else "." ++ String.ofList kept)

/-- Reads a time of day. -/
def time : Reading String := do
  let hour ← fixedDigits 2 0 23
  Reading.char ':'
  let minute ← fixedDigits 2 0 59
  Reading.char ':'
  let second ← fixedDigits 2 0 60
  let places ← perhaps secondFraction
  pure (padded 2 hour ++ ":" ++ padded 2 minute ++ ":" ++ padded 2 second ++ places.getD "")

/-- Reads the distance from universal time; none at all is written with a plus. -/
def offset : Reading String := do
  let c ← Reading.next
  if c = 'Z' ∨ c = 'z' then pure "Z"
  else if c = '+' ∨ c = '-' then do
    let hour ← fixedDigits 2 0 23
    Reading.char ':'
    let minute ← fixedDigits 2 0 59
    let mark := if c = '-' ∧ hour + minute ≠ 0 then "-" else "+"
    pure (mark ++ padded 2 hour ++ ":" ++ padded 2 minute)
  else Reading.refuse

/-- Reads a date, a time or a date with a time. -/
def datetime : Reading String :=
  Reading.orElse
    (do
      let day ← date
      let clock ← perhaps (do
        let _ ← Reading.satisfying (fun c => c == 'T' || c == 't' || c == ' ')
        let clock ← time
        let zone ← perhaps offset
        pure ("T" ++ clock ++ zone.getD ""))
      pure (day ++ clock.getD ""))
    time

/-- Reads a number or a date. -/
def numeric : Reading TomlValue :=
  Reading.orElse (.datetime <$> datetime) (Reading.orElse (.float <$> decimalFloat)
    (Reading.orElse (.float <$> specialFloat) (.integer <$> integer)))

end ShapeDispatch.Toml
