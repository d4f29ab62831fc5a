import ShapeDispatch.Classifier.Basic

/-!
The standard classifier: exact constructors first, then functions, callables, array-likes and the
objects of a document host, recognised by what they can do.
-/

namespace ShapeDispatch

/-- Whether the value has the property and it counts as true. -/
def Value.hasTruthy {β : Type} (value : Value β) (name : String) : Bool :=
  match value.property? name with
  | some property => property.isTruthy
  | none => false

namespace Classifier
variable {β : Type}

/-- A function, by its constructor or by the name of its type. -/
def isFunction : Predicate β := fun _ typeName constructor? =>
  constructor? == some .function || typeName == "function"

def isCallable : Predicate β := fun value _ _ =>
  value.respondsTo "call" && value.respondsTo "apply"

/-- A list, something with the methods of a list, or something with a first element and a length. -/
def isArrayLike : Predicate β := fun value _ constructor? =>
  constructor? == some .array || constructor? == some .arguments ||
    (value.respondsTo "join" && value.respondsTo "slice" && value.respondsTo "unshift") ||
    (value.hasTruthy "0" && (value.property? "length").isSome)

def isEvent : Predicate β := fun value _ _ =>
  value.hasTruthy "type" && (value.hasTruthy "target" || value.hasTruthy "srcElement")

def isElement : Predicate β := fun value _ _ => value.respondsTo "getElementsByTagName"

def isDocument : Predicate β := fun value _ _ => value.respondsTo "getElementById"

def isWindow : Predicate β := fun value _ _ =>
  value.hasTruthy "location" && value.hasTruthy "document"

/-- The built-in rules. -/
def standard : Classifier β := ⟨[
  .exact "string" .string,
  .exact "number" .number,
  .exact "boolean" .boolean,
  .exact "date" .date,
  .exact "regexp" .regexp,
  .predicate "function" isFunction,
  .predicate "callable" isCallable,
  .predicate "array" isArrayLike,
  .predicate "event" isEvent,
  .predicate "element" isElement,
  .predicate "document" isDocument,
  .predicate "window" isWindow]⟩

end Classifier

end ShapeDispatch
