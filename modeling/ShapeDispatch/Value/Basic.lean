import ShapeDispatch.OrderedMap

/-!
The dynamically typed values that calls are dispatched on. A function value carries an
implementation, whose body may be anything: `β` is the type of bodies, and no operation of this
library looks inside one before it is run.
-/

namespace ShapeDispatch

/-- What built a value. -/
inductive Constructor where
  | string | number | boolean | date | regexp | function | array | arguments | object
  /-- The constructor of host objects with this name. -/
  | named (name : String)
  deriving DecidableEq, Repr

/-- Something that can be called. `identity` tells apart bodies that were made separately. Each list
in `binders` turns the values of a call into a record of those names; the first is applied first. -/
structure Implementation (β : Type) where
  label : String
  identity : Nat
  binders : List (List String)
  body : β

/-- A runtime value. -/
inductive Value (β : Type) where
  | undefined
  | null
  | bool (b : Bool)
  | number (n : Float)
  | string (s : String)
  /-- Milliseconds since 1970. -/
  | date (milliseconds : Int)
  | regexp (source : String)
  | function (implementation : Implementation β)
  | array (items : List (Value β))
  /-- The argument list of a call, captured as a value. -/
  | arguments (items : List (Value β))
  | object (fields : List (String × Value β))
  /-- A value of the host that declares its capabilities, and may report its own type token. -/
  | host (constructor : String) (properties : List (String × Value β)) (methods : List String)
      (tag : Option String)

/-- Values by name, in insertion order. -/
abbrev Record (β : Type) := List (String × Value β)

namespace Value
variable {β : Type}

/-- The general name of a value's type, which holds where no classifier rule does. -/
def typeName : Value β → String
  | undefined => "undefined"
  | null => "null"
  | bool _ => "boolean"
  | number _ => "number"
  | string _ => "string"
  | function _ => "function"
  | date _ | regexp _ | array _ | arguments _ | object _ | host _ _ _ _ => "object"

/-- What built the value, if it was built by anything. -/
def constructor? : Value β → Option Constructor
  | undefined | null => none
  | bool _ => some .boolean
  | number _ => some .number
  | string _ => some .string
  | date _ => some .date
  | regexp _ => some .regexp
  | function _ => some .function
  | array _ => some .array
  | arguments _ => some .arguments
  | object _ => some .object
  | host name _ _ _ => some (.named name)

/-- Whether a value counts as true: neither undefined, null, false, zero, not-a-number nor the empty
string does. -/
def isTruthy : Value β → Bool
  | undefined | null => false
  | bool b => b
  | number n => n != 0 && !n.isNaN
  | string s => !s.isEmpty
  | _ => true

/-- The elements of an array or an argument list. -/
def elements? : Value β → Option (List (Value β))
  | array items | arguments items => some items
  | _ => none

/-- The property `name` of an object or host object. -/
def property? (name : String) : Value β → Option (Value β)
  | object fields => Assoc.find? name fields
  | host _ properties _ _ => Assoc.find? name properties
  | _ => none

/-- Whether the value has a method `name`: a host object declares it, an object holds a function
under that name. -/
def respondsTo (name : String) : Value β → Bool
  | host _ _ methods _ => methods.contains name
  | object fields =>
    match Assoc.find? name fields with
    | some (function _) => true
    | _ => false
  | _ => false

end Value

end ShapeDispatch
