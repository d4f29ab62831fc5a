import ShapeDispatch.Description
import ShapeDispatch.Shape
import ShapeDispatch.Signature.Reader

/-!
Planned entries: the entries of a description with their signatures read, on the way to a table.
-/

namespace ShapeDispatch

/-- What a planned entry leads to. -/
inductive Target (β : Type) where
  | method (implementation : Implementation β)
  | aliasOf (target : String)

/-- An entry on its way to a table. -/
structure PlannedEntry (β : Type) where
  /-- The position of the declaration. -/
  order : Nat
  /-- The text that the entry was declared under. -/
  source : String
  signature : Signature
  target : Target β
  defaults : List (Value β)
  /-- The names for the values of a call; none keeps them positional. -/
  paramNames : List String
  /-- The shapes that are to become keys. -/
  shapes : List Shape

namespace PlannedEntry
variable {β : Type}

/-- An entry as it is first planned: positional, and with all its positions as the only shape. -/
def fresh (order : Nat) (source : String) (signature : Signature) (target : Target β)
    (defaults : List (Value β)) : PlannedEntry β :=
  ⟨order, source, signature, target, defaults, [], [signature.fullShape]⟩

/-- The implementation that the entry itself provides. -/
def method? (e : PlannedEntry β) : Option (Implementation β) :=
  match e.target with
  | .method implementation => some implementation
  | .aliasOf _ => none

/-- Whether the entry leads to another one. -/
def isAlias (e : PlannedEntry β) : Bool := e.method?.isNone

end PlannedEntry

namespace Entry
variable {β : Type}

/-- The signature text of an entry that was declared under `source`. -/
def signatureText (source : String) : Entry β → String
  | overload o => o.arguments
  | _ => source

def target : Entry β → Target β
  | method implementation => .method implementation
  | aliasOf target => .aliasOf target
  | overload o => .method o.method

def defaults : Entry β → List (Value β)
  | overload o => o.defaults
  | _ => []

/-- Plans an entry: reads its signature, which must have a position for every default. -/
def plan (order : Nat) (source : String) (entry : Entry β) :
    Except CompileError (PlannedEntry β) :=
  match Signature.read (entry.signatureText source) with
  | .error e => .error (.signature e)
  | .ok signature =>
    if signature.length < entry.defaults.length then
      .error (.defaultsOverflow source entry.defaults.length signature.length)
    else .ok (.fresh order source signature entry.target entry.defaults)

end Entry

/-- Plans the entries of a description, in the order declared. -/
def Description.plan {β : Type} (d : Description β) : Except CompileError (List (PlannedEntry β)) :=
  d.toList.zipIdx.mapM (fun (declared, order) => declared.2.plan order declared.1)

end ShapeDispatch
