import ShapeDispatch.Value.Basic

/-!
When two values are equal. Numbers are compared as numbers, so that not-a-number differs from itself
and the two zeros are equal; records are compared without regard to order; two functions are equal
only if they share a body.
-/

namespace ShapeDispatch

/-- Whether two handles share a body and the way of calling it. -/
def Implementation.sharesBody {β : Type} (a b : Implementation β) : Bool :=
  a.identity == b.identity && a.binders == b.binders

/-- Whether two lists have the same members. -/
def sameMembers (as bs : List String) : Bool := as.all bs.contains && bs.all as.contains

namespace Value
variable {β : Type}

mutual

/-- Whether two values are equal. -/
def equals : Value β → Value β → Bool
  | undefined, undefined => true
  | null, null => true
  | bool a, bool b => a == b
  | number a, number b => a == b
  | string a, string b => a == b
  | date a, date b => a == b
  | regexp a, regexp b => a == b
  | function a, function b => a.sharesBody b
  | array as, array bs => equalItems as bs
  | arguments as, arguments bs => equalItems as bs
  | object as, object bs => as.length == bs.length && fieldsWithin as bs
  | host c as ms t, host c' bs ms' t' =>
    c == c' && as.length == bs.length && fieldsWithin as bs && sameMembers ms ms' && t == t'
  | _, _ => false

/-- Whether two lists are equal position by position. -/
def equalItems : List (Value β) → List (Value β) → Bool
  | [], [] => true
  | a :: as, b :: bs => equals a b && equalItems as bs
  | _, _ => false

/-- Whether every field of the first record has an equal one in the second. -/
def fieldsWithin : Record β → Record β → Bool
  | [], _ => true
  | (name, a) :: rest, bs =>
    (match Assoc.find? name bs with
      | some b => equals a b
      | none => false) && fieldsWithin rest bs

end

end Value

end ShapeDispatch
