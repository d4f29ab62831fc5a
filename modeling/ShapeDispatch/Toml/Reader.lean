import ShapeDispatch.Toml.Scalar
import ShapeDispatch.Toml.Table

/-!
Reading TOML documents: line by line into expressions, which are then carried out on a document under
construction.
-/

namespace ShapeDispatch.Toml
open ShapeDispatch.Text

/-- Reads a key, an equals sign and a value. -/
def pair (value : Reading TomlValue) : Reading (List String × TomlValue) := do
  let key ← key
  Reading.char '='
  blanks
  pure (key, ← value)

/-- Takes a comma behind an item of an array, and says whether another item follows. -/
def arrayContinues : Reading Bool := do
  spacing
  if ← Reading.optionally ',' then do
    spacing
    pure ((← Reading.peek?) != some ']')
  else pure false

/-- Reads an array, behind whose last item a comma may stand. -/
def array (value : Reading TomlValue) : Reading TomlValue := do
  Reading.char '['
  spacing
  if ← Reading.optionally ']' then pure (.array [])
  else do
    let items ← Reading.chain (do spacing; value) arrayContinues
    spacing
    Reading.char ']'
    pure (.array items)

/-- Reads a table in braces. -/
def inlineTable (value : Reading TomlValue) : Reading TomlValue := do
  Reading.char '{'
  blanks
  if ← Reading.optionally '}' then pure (.table [])
  else do
    let pairs ← Reading.chain (do let entry ← pair value; blanks; pure entry)
      (Reading.optionally ',')
    Reading.char '}'
    match Draft.opened.assignAll pairs with
    | some t => pure (.table (finishItems t.items))
    | none => Reading.refuse

/-- Reads a value, with `depth` levels of arrays and tables left. -/
def value (depth : Nat) : Reading TomlValue := do
  match ← Reading.peek? with
  | some '"' => .string <$> anyString
  | some '\'' => .string <$> anyString
  | some 't' => do Reading.exactly "true".toList; pure (.bool true)
  | some 'f' => do Reading.exactly "false".toList; pure (.bool false)
  | some '[' =>
    match depth with
    | 0 => Reading.refuse
    | depth + 1 => array (value depth)
  | some '{' =>
    match depth with
    | 0 => Reading.refuse
    | depth + 1 => inlineTable (value depth)
  | _ => numeric

/-- What a line says. -/
inductive Expression where
  | nothing
  | assign (key : List String) (value : TomlValue)
  | table (path : List String)
  | row (path : List String)

/-- Reads a header of a table or of a list of tables. -/
def header : Reading Expression := do
  Reading.char '['
  if ← Reading.optionally '[' then do
    let path ← key
    Reading.exactly [']', ']']
    pure (.row path)
  else do
    let path ← key
    Reading.char ']'
    pure (.table path)

/-- Reads a line. -/
def line : Reading Expression := do
  blanks
  match ← Reading.peek? with
  | none => pure .nothing
  | some '#' => do lineRest; pure .nothing
  | some '\n' => do newline; pure .nothing
  | some '\r' => do newline; pure .nothing
  | some '[' => do
    let expression ← header
    lineRest
    pure expression
  | some _ => do
    let (key, value) ← pair (value nestingLimit)
    lineRest
    pure (.assign key value)

/-- Carries out what a line says. -/
def Document.perform (d : Document) : Expression → Option Document
  | .nothing => some d
  | .assign key value => d.assign key value
  | .table path => d.enterTable path
  | .row path => d.enterRow path

/-- The characters behind a byte order mark. -/
def withoutMark : List Char → List Char
  | '\ufeff' :: rest => rest
  | cs => cs

/-- Reads a document: the fields of its outermost table. -/
def read? (text : String) : Option (List (String × TomlValue)) := do
  let expressions ← Reading.whole? (Reading.many line) (withoutMark text.toList)
  let d ← expressions.foldlM Document.perform Document.start
  pure (finishItems d.root.items)

end ShapeDispatch.Toml
