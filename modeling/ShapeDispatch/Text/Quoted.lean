import ShapeDispatch.Text.Unshown

/-!
Quoted texts: a text between double quotes, in which a quote, a backslash and everything that cannot
be shown is written as an escape.
-/

namespace ShapeDispatch.Text

/-- The code point in hexadecimal, without leading zeros. -/
def hex (c : Char) : List Char := Nat.toDigits 16 c.toNat

/-- How a character is written inside quotes. -/
def escaped (c : Char) : List Char :=
  if c = '"' then ['\\', '"']
  else if c = '\\' then ['\\', '\\']
  else if c = '\n' then ['\\', 'n']
  else if c = '\r' then ['\\', 'r']
  else if c = '\t' then ['\\', 't']
  else if c = '\x00' then ['\\', '0']
  else if isUnshown c then ['\\', 'u', '{'] ++ hex c ++ ['}']
  else [c]

/-- The text in double quotes. -/
def quoted (text : String) : String :=
  String.ofList ('"' :: text.toList.flatMap escaped ++ ['"'])

end ShapeDispatch.Text
