import ShapeDispatch.Decimal.Binary64
import ShapeDispatch.Json.Basic

/-!
The data that a TOML document states.
-/

namespace ShapeDispatch

/-- A TOML value; tables in brackets and tables in braces are the same. -/
inductive TomlValue where
  | string (s : String)
  | integer (n : Int)
  | float (f : Float)
  | bool (b : Bool)
  /-- A date, a time or both, as text. -/
  | datetime (text : String)
  | array (items : List TomlValue)
  | table (fields : List (String × TomlValue))

namespace TomlValue

/-- The double nearest to a whole number. -/
def floatOfInt (n : Int) : Float := Binary64.nearest (n < 0) n.natAbs 1

/-- The key under which a date stands where there are no dates. -/
def datetimeKey : String := "$__toml_private_datetime"

mutual

/-- The JSON document for a value: a number that is not finite becomes null, a date an object. -/
def toJson : TomlValue → JsonValue
  | string s => .string s
  | integer n => .number (floatOfInt n)
  | float f => if f.isFinite then .number f else .null
  | bool b => .bool b
  | datetime text => .object [(datetimeKey, .string text)]
  | array items => .array (toJsonItems items)
  | table fields => .ofFields (toJsonFields fields)

/-- The JSON documents for the items of an array. -/
def toJsonItems : List TomlValue → List JsonValue
  | [] => []
  | item :: rest => toJson item :: toJsonItems rest

/-- The JSON documents for the fields of a table. -/
def toJsonFields : List (String × TomlValue) → List (String × JsonValue)
  | [] => []
  | (key, value) :: rest => (key, toJson value) :: toJsonFields rest

end

end TomlValue

end ShapeDispatch
