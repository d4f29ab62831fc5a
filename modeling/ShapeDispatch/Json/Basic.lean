import ShapeDispatch.Value.Basic

/-!
The data that JSON text can state. Objects keep their keys in the order of their characters, each key
once, and what is stored last under a key counts.
-/

namespace ShapeDispatch

/-- A JSON document. -/
inductive JsonValue where
  | null
  | bool (b : Bool)
  | number (n : Float)
  | string (s : String)
  | array (items : List JsonValue)
  | object (fields : List (String × JsonValue))

namespace JsonValue

/-- Stores a value in a list of fields that is sorted by key. -/
def insertSorted {α : Type} (key : String) (value : α) : List (String × α) → List (String × α)
  | [] => [(key, value)]
  | (k, v) :: rest =>
    match compare key k with
    | .lt => (key, value) :: (k, v) :: rest
    | .eq => (key, value) :: rest
    | .gt => (k, v) :: insertSorted key value rest

/-- The object with these fields. -/
def ofFields (fields : List (String × JsonValue)) : JsonValue :=
  .object (fields.foldl (fun sorted field => insertSorted field.1 field.2 sorted) [])

end JsonValue

namespace Value
variable {β : Type}

mutual

/-- The runtime value of a document. -/
def ofJson : JsonValue → Value β
  | .null => .null
  | .bool b => .bool b
  | .number n => .number n
  | .string s => .string s
  | .array items => .array (ofJsonItems items)
  | .object fields => .object (ofJsonFields fields)

/-- The runtime values of the items of a document. -/
def ofJsonItems : List JsonValue → List (Value β)
  | [] => []
  | item :: rest => ofJson item :: ofJsonItems rest

/-- The runtime values of the fields of a document. -/
def ofJsonFields : List (String × JsonValue) → Record β
  | [] => []
  | (key, value) :: rest => (key, ofJson value) :: ofJsonFields rest

end

end Value

end ShapeDispatch
