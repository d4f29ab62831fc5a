import ShapeDispatch.Error
import ShapeDispatch.Value.Basic
import ShapeDispatch.Text.Quoted

/-!
Calls. A body receives its arguments by position or, where the signature names its parameters, as a
record keyed by name. `Implementation.prepare` says what reaches the body; a `Runner` says what the
body makes of it.
-/

namespace ShapeDispatch

/-- Arguments as a body receives them. -/
inductive CallArgs (β : Type) where
  | positional (values : List (Value β))
  | named (fields : Record β)

namespace CallArgs
variable {β : Type}

/-- The values in the order supplied, without names. -/
def values : CallArgs β → List (Value β)
  | positional values => values
  | named fields => fields.map Prod.snd

/-- The argument called `name`; positional arguments have no names. -/
def get? (args : CallArgs β) (name : String) : Option (Value β) :=
  match args with
  | positional _ => none
  | named fields => Assoc.find? name fields

/-- The argument at a position. -/
def at? (args : CallArgs β) (index : Nat) : Option (Value β) := args.values[index]?

def length (args : CallArgs β) : Nat := args.values.length

def isEmpty (args : CallArgs β) : Bool := args.values.isEmpty

/-- All arguments as one value: an argument list or an object. -/
def toValue : CallArgs β → Value β
  | positional values => .arguments values
  | named fields => .object fields

end CallArgs

/-- How a body runs. -/
abbrev Runner (β : Type) := β → CallArgs β → Except DispatchError (Value β)

/-- Turns the values of a call into a record of the names. Names without a value stay absent, values
without a name are an error. -/
def bindNames {β : Type} (names : List String) (values : List (Value β)) :
    Except DispatchError (CallArgs β) :=
  if names.length < values.length then .error (.binding values.length names)
  else .ok (.named (Assoc.ofPairs (names.zip values)))

/-- Applies binders, the first one first. -/
def bindAll {β : Type} : List (List String) → CallArgs β → Except DispatchError (CallArgs β)
  | [], args => .ok args
  | names :: rest, args =>
    match bindNames names args.values with
    | .error e => .error e
    | .ok bound => bindAll rest bound

namespace Implementation
variable {β : Type}

/-- Names the parameters of an implementation; without names it stays as it is. -/
def bind (implementation : Implementation β) (names : List String) : Implementation β :=
  if names.isEmpty then implementation
  else { implementation with binders := names :: implementation.binders }

/-- What reaches the body. -/
def prepare (implementation : Implementation β) (args : CallArgs β) :
    Except DispatchError (CallArgs β) :=
  bindAll implementation.binders args

/-- Calls the implementation. -/
def invoke (run : Runner β) (implementation : Implementation β) (args : CallArgs β) :
    Except DispatchError (Value β) :=
  match implementation.prepare args with
  | .error e => .error e
  | .ok prepared => run implementation.body prepared

/-- Calls the implementation with arguments by position. -/
def call (run : Runner β) (implementation : Implementation β) (values : List (Value β)) :
    Except DispatchError (Value β) :=
  implementation.invoke run (.positional values)

/-- The text that shows an implementation to a developer. -/
def debugText (implementation : Implementation β) : String :=
  "Implementation \x7b label: " ++ Text.quoted implementation.label ++ ", .. \x7d"

end Implementation

end ShapeDispatch
