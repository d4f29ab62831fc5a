/-!
The tokens of signature text. Seven characters are tokens of their own, four are blanks, and every
other character belongs to a name. Spans count UTF-8 bytes. A name reaches as far as it can, because
a character that belongs to a name joins the name that starts right behind it.
-/

namespace ShapeDispatch

/-- A range of UTF-8 bytes. -/
structure Span where
  start : Nat
  stop : Nat
  deriving DecidableEq, Repr

/-- The number of bytes that the characters take. -/
def byteLength : List Char → Nat
  | [] => 0
  | c :: rest => c.utf8Size + byteLength rest

/-- The characters whose first byte lies in the span, when the text starts at byte `offset`. -/
def sliceFrom (offset : Nat) (span : Span) : List Char → List Char
  | [] => []
  | c :: rest =>
    let tail := sliceFrom (offset + c.utf8Size) span rest
    if span.start ≤ offset ∧ offset < span.stop then c :: tail else tail

/-- The part of the text that a span covers. -/
def Span.slice (span : Span) (text : List Char) : String := String.ofList (sliceFrom 0 span text)

inductive TokenKind where
  | openBracket | closeBracket | comma | colon | pipe | question | projection | name
  deriving DecidableEq, Repr

namespace TokenKind

/-- The kind of a character that is a token of its own. -/
def ofPunctuation? : Char → Option TokenKind
  | '[' => some openBracket
  | ']' => some closeBracket
  | ',' => some comma
  | ':' => some colon
  | '|' => some pipe
  | '?' => some question
  | '>' => some projection
  | _ => none

/-- How a token of the kind is called. -/
def describe : TokenKind → String
  | openBracket => "`[`"
  | closeBracket => "`]`"
  | comma => "`,`"
  | colon => "`:`"
  | pipe => "`|`"
  | question => "`?`"
  | projection => "`>`"
  | name => "a type or name"

end TokenKind

/-- A token, the bytes it covers and the characters it consists of. -/
structure Lexeme where
  kind : TokenKind
  span : Span
  chars : List Char
  deriving DecidableEq, Repr

namespace Lexeme

def text (l : Lexeme) : String := String.ofList l.chars

/-- Space, tab and the two line ends separate tokens and mean nothing else. -/
def isBlank (c : Char) : Bool := c == ' ' || c == '\t' || c == '\r' || c == '\n'

/-- Puts a name's character, which covers the bytes from `start` to `stop`, before what follows. -/
def extend (c : Char) (start stop : Nat) : List Lexeme → List Lexeme
  | [] => [⟨.name, ⟨start, stop⟩, [c]⟩]
  | l :: rest =>
    if l.kind = .name ∧ l.span.start = stop then ⟨.name, ⟨start, l.span.stop⟩, c :: l.chars⟩ :: rest
    else ⟨.name, ⟨start, stop⟩, [c]⟩ :: l :: rest

/-- The tokens of a text that starts at byte `offset`. -/
def scanFrom (offset : Nat) : List Char → List Lexeme
  | [] => []
  | c :: rest =>
    let stop := offset + c.utf8Size
    if isBlank c then scanFrom stop rest
    else
      match TokenKind.ofPunctuation? c with
      | some kind => ⟨kind, ⟨offset, stop⟩, [c]⟩ :: scanFrom stop rest
      | none => extend c offset stop (scanFrom stop rest)

/-- The tokens of a text. -/
def scan (text : List Char) : List Lexeme := scanFrom 0 text

end Lexeme

end ShapeDispatch
