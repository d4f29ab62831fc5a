import ShapeDispatch.Json.Basic
import ShapeDispatch.Json.Number
import ShapeDispatch.Text.Hex

/-!
Reading JSON text. Lists and objects may be nested 127 deep; a text that is nested deeper is refused,
as is one with a number out of range, half of a surrogate pair or anything behind the document.
-/

namespace ShapeDispatch.Json
open ShapeDispatch.Text

/-- How deep lists and objects may be nested. -/
def nestingLimit : Nat := 127

def isBlank (c : Char) : Bool := c == ' ' || c == '\n' || c == '\t' || c == '\r'

/-- Takes the blanks that come next. -/
def blanks : Reading Unit := do
  let _ ← Reading.run isBlank

/-- The 16-bit unit that four hexadecimal digits spell. -/
def unit? (a b c d : Char) : Option Nat := do
  pure ((((← hexValue? a) * 16 + (← hexValue? b)) * 16 + (← hexValue? c)) * 16 + (← hexValue? d))

def isHighSurrogate (unit : Nat) : Bool := 0xd800 ≤ unit && unit ≤ 0xdbff

def isLowSurrogate (unit : Nat) : Bool := 0xdc00 ≤ unit && unit ≤ 0xdfff

/-- The character behind a single-letter escape. -/
def shortEscape? : Char → Option Char
  | '"' => some '"'
  | '\\' => some '\\'
  | '/' => some '/'
  | 'b' => some '\x08'
  | 'f' => some '\x0c'
  | 'n' => some '\n'
  | 'r' => some '\r'
  | 't' => some '\t'
  | _ => none

/-- The characters up to the closing quote, and what follows the quote. -/
def stringBody : List Char → Option (List Char × List Char)
  | [] => none
  | '"' :: rest => some ([], rest)
  | '\\' :: 'u' :: a :: b :: c :: d :: rest =>
    match unit? a b c d with
    | none => none
    | some unit =>
      if isHighSurrogate unit then
        match rest with
        | '\\' :: 'u' :: e :: f :: g :: h :: rest =>
          match unit? e f g h with
          | none => none
          | some low =>
            if isLowSurrogate low then
              (stringBody rest).map (fun (chars, left) =>
                (Char.ofNat (0x10000 + (unit - 0xd800) * 0x400 + (low - 0xdc00)) :: chars, left))
            else none
        | _ => none
      else if isLowSurrogate unit then none
      else (stringBody rest).map (fun (chars, left) => (Char.ofNat unit :: chars, left))
  | '\\' :: c :: rest =>
    match shortEscape? c with
    | none => none
    | some escaped => (stringBody rest).map (fun (chars, left) => (escaped :: chars, left))
  | c :: rest =>
    if c.toNat < 0x20 || c == '\\' then none
    else (stringBody rest).map (fun (chars, left) => (c :: chars, left))

/-- Reads a string. -/
def string : Reading String := do
  Reading.char '"'
  String.ofList <$> stringBody

/-- Takes a comma or the closing bracket behind an item, and says whether another item follows. -/
def continues (closing : Char) : Reading Bool := do
  blanks
  let c ← Reading.next
  if c = ',' then pure true
  else if c = closing then pure false
  else Reading.refuse

/-- Reads items up to the closing bracket. -/
def itemsUntil {α : Type} (closing : Char) (item : Reading α) : Reading (List α) := do
  blanks
  if ← Reading.optionally closing then pure []
  else Reading.chain (do blanks; item) (continues closing)

/-- Reads a field of an object: its key, a colon and its value. -/
def field (value : Reading JsonValue) : Reading (String × JsonValue) := do
  let key ← string
  blanks
  Reading.char ':'
  blanks
  pure (key, ← value)

/-- Reads a document, with `depth` levels of lists and objects left. -/
def value (depth : Nat) : Reading JsonValue := do
  match ← Reading.peek? with
  | some '"' => .string <$> string
  | some 't' => do Reading.exactly "true".toList; pure (.bool true)
  | some 'f' => do Reading.exactly "false".toList; pure (.bool false)
  | some 'n' => do Reading.exactly "null".toList; pure .null
  | some '[' =>
    match depth with
    | 0 => Reading.refuse
    | depth + 1 => do
      Reading.char '['
      .array <$> itemsUntil ']' (value depth)
  | some '{' =>
    match depth with
    | 0 => Reading.refuse
    | depth + 1 => do
      Reading.char '{'
      JsonValue.ofFields <$> itemsUntil '}' (field (value depth))
  | _ => .number <$> number

/-- Reads a whole JSON text. -/
def read? (text : String) : Option JsonValue :=
  Reading.whole? (do
    blanks
    let document ← value nestingLimit
    blanks
    pure document) text.toList

end ShapeDispatch.Json
