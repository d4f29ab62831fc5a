import ShapeDispatch.Text.Hex
import ShapeDispatch.Text.Reading

/-!
The words of TOML documents: blanks, comments, line ends, keys and the four kinds of strings. A
string is read character by character; the mode says what the characters before have announced.
-/

namespace ShapeDispatch.Toml
open ShapeDispatch.Text

def isBlank (c : Char) : Bool := c == ' ' || c == '\t'

/-- Whether a character may stand in a comment: no control character but the tab. -/
def isShown (c : Char) : Bool := c == '\t' || (' ' ≤ c && c ≤ '~') || 0x80 ≤ c.toNat

/-- Takes the blanks that come next. -/
def blanks : Reading Unit := do
  let _ ← Reading.run isBlank

/-- Takes a line end. -/
def newline : Reading Unit :=
  Reading.orElse (Reading.char '\n') (Reading.exactly ['\r', '\n'])

/-- Takes a comment up to the end of its line. -/
def comment : Reading Unit := do
  Reading.char '#'
  let _ ← Reading.run isShown

/-- Takes the end of a line or of the document. -/
def lineEnd : Reading Unit := do
  match ← Reading.peek? with
  | none => pure ()
  | some _ => newline

/-- Takes what may follow on a line: blanks, a comment and the end. -/
def lineRest : Reading Unit := do
  blanks
  if (← Reading.peek?) = some '#' then comment
  lineEnd

/-- Takes blanks, line ends and comments. -/
def spacing : Reading Unit := do
  let _ ← Reading.many (do
    match ← Reading.peek? with
    | some '#' => comment
    | some ' ' => blanks
    | some '\t' => blanks
    | _ => newline)

/-- What the characters before have announced inside a string. -/
inductive StringMode where
  /-- The character stands for itself; white space is left out while `skipping`. -/
  | text (skipping : Bool)
  /-- A backslash comes before. -/
  | escape
  /-- The code point so far, and how many more digits it has. -/
  | hex (codePoint left : Nat)
  /-- A backslash ended the line but for blanks. -/
  | lineBreak

/-- The character behind a single-letter escape. -/
def shortEscape? : Char → Option Char
  | '"' => some '"'
  | '\\' => some '\\'
  | 'b' => some '\x08'
  | 'f' => some '\x0c'
  | 'n' => some '\n'
  | 'r' => some '\r'
  | 't' => some '\t'
  | _ => none

/-- Puts a character in front of a result. -/
def prepend (c : Char) : Option (List Char × List Char) → Option (List Char × List Char)
  | some (chars, rest) => some (c :: chars, rest)
  | none => none

/-- What remains behind the quotes that close a string over several lines: up to two quotes before
them belong to the string. -/
def closeLong (quote : Char) : List Char → Option (List Char × List Char)
  | a :: b :: c :: d :: e :: rest =>
    if [a, b, c, d, e] = [quote, quote, quote, quote, quote] then some ([quote, quote], rest)
    else if [a, b, c, d] = [quote, quote, quote, quote] then some ([quote], e :: rest)
    else if [a, b, c] = [quote, quote, quote] then some ([], d :: e :: rest)
    else none
  | [a, b, c, d] =>
    if [a, b, c, d] = [quote, quote, quote, quote] then some ([quote], [])
    else if [a, b, c] = [quote, quote, quote] then some ([], [d])
    else none
  | [a, b, c] => if [a, b, c] = [quote, quote, quote] then some ([], []) else none
  | _ => none

/-- Whether a carriage return comes right before a line feed. -/
def isPairedReturn (c : Char) (rest : List Char) : Bool := c == '\r' && rest.head? == some '\n'

/-- The characters of a string with escapes, up to its closing quote or, in a `long` string, which may
extend over several lines, up to its closing quotes. There, a backslash at the end of a line leaves
out the white space up to the next other character. -/
def stringBody (long : Bool) : StringMode → List Char → Option (List Char × List Char)
  | _, [] => none
  | .text skipping, c :: rest =>
    if skipping && (isBlank c || c == '\n' || isPairedReturn c rest) then
      stringBody long (.text true) rest
    else if c == '"' then
      if long then
        match closeLong '"' (c :: rest) with
        | some closed => some closed
        | none => prepend c (stringBody long (.text false) rest)
      else some ([], rest)
    else if c == '\\' then stringBody long .escape rest
    else if isShown c || (long && c == '\n') then prepend c (stringBody long (.text false) rest)
    else if long && isPairedReturn c rest then stringBody long (.text false) rest
    else none
  | .escape, c :: rest =>
    if c == 'u' then stringBody long (.hex 0 4) rest
    else if c == 'U' then stringBody long (.hex 0 8) rest
    else
      match shortEscape? c with
      | some escaped => prepend escaped (stringBody long (.text false) rest)
      | none =>
        if long && c == '\n' then stringBody long (.text true) rest
        else if long && (isBlank c || isPairedReturn c rest) then stringBody long .lineBreak rest
        else none
  | .hex codePoint left, c :: rest =>
    match hexValue? c with
    | none => none
    | some digit =>
      let codePoint := codePoint * 16 + digit
      if left = 1 then
        match charOf? codePoint with
        | some character => prepend character (stringBody long (.text false) rest)
        | none => none
      else stringBody long (.hex codePoint (left - 1)) rest
  | .lineBreak, c :: rest =>
    if c == '\n' then stringBody long (.text true) rest
    else if isBlank c || isPairedReturn c rest then stringBody long .lineBreak rest
    else none

/-- The characters of a string without escapes over several lines, up to its closing quotes. -/
def longLiteralBody : List Char → Option (List Char × List Char)
  | [] => none
  | c :: rest =>
    if c == '\'' then
      match closeLong '\'' (c :: rest) with
      | some closed => some closed
      | none => prepend c (longLiteralBody rest)
    else if c == '\n' || isShown c then prepend c (longLiteralBody rest)
    else if isPairedReturn c rest then longLiteralBody rest
    else none

/-- Reads a string with escapes on one line. -/
def basicString : Reading String := do
  Reading.char '"'
  String.ofList <$> stringBody false (.text false)

/-- Reads a string without escapes on one line. -/
def literalString : Reading String := do
  Reading.char '\''
  let chars ← Reading.run (fun c => isShown c && c != '\'')
  Reading.char '\''
  pure (String.ofList chars)

/-- Takes the line end right behind the quotes that open a string. -/
def skipFirstNewline : Reading Unit := Reading.orElse newline (pure ())

/-- Reads a string of any kind. -/
def anyString : Reading String := fun cs =>
  match cs with
  | '"' :: '"' :: '"' :: rest =>
    (do skipFirstNewline; String.ofList <$> stringBody true (.text false) : Reading String) rest
  | '\'' :: '\'' :: '\'' :: rest =>
    (do skipFirstNewline; String.ofList <$> longLiteralBody : Reading String) rest
  | '"' :: _ => basicString cs
  | _ => literalString cs

def isBare (c : Char) : Bool := c.isAlphanum || c == '-' || c == '_'

/-- Reads one part of a key. -/
def simpleKey : Reading String := do
  match ← Reading.peek? with
  | some '"' => basicString
  | some '\'' => literalString
  | _ => String.ofList <$> Reading.someRun isBare

/-- How deep values may be nested, and how many parts a key may have. -/
def nestingLimit : Nat := 79

/-- Reads a key, whose parts are separated by dots. -/
def key : Reading (List String) := do
  let parts ← Reading.chain (do blanks; let part ← simpleKey; blanks; pure part)
    (Reading.optionally '.')
  if nestingLimit < parts.length then Reading.refuse
  pure parts

end ShapeDispatch.Toml
