import ShapeDispatch.Decimal.Shortest
import ShapeDispatch.Text.Bracketed
import ShapeDispatch.Text.Quoted
import ShapeDispatch.Value.Basic

/-!
The text of a value: numbers by their shortest decimal, strings in quotes, lists in brackets, records
in braces with bare keys, functions and host objects by name.
-/

namespace ShapeDispatch

namespace Value
variable {β : Type}

mutual

/-- The text of a value. -/
def render : Value β → String
  | undefined => "undefined"
  | null => "null"
  | bool b => if b then "true" else "false"
  | number n => Decimal.textOfFloat n
  | string s => Text.quoted s
  | date milliseconds => "Date(" ++ milliseconds.repr ++ ")"
  | regexp source => "/" ++ source ++ "/"
  | function implementation => "<function " ++ implementation.label ++ ">"
  | array items => Text.bracketed (renderItems items)
  | arguments items => Text.bracketed (renderItems items)
  | object fields => "\x7b" ++ ", ".intercalate (renderFields fields) ++ "\x7d"
  | host constructor _ _ _ => "<" ++ constructor ++ ">"

/-- The texts of the values of a list. -/
def renderItems : List (Value β) → List String
  | [] => []
  | item :: rest => render item :: renderItems rest

/-- The texts of the fields of a record. -/
def renderFields : Record β → List String
  | [] => []
  | (name, value) :: rest => (name ++ ": " ++ render value) :: renderFields rest

end

end Value

end ShapeDispatch
