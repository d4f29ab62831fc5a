import ShapeDispatch.Call
import ShapeDispatch.OrderedMap

/-!
Descriptions: signature texts, in the order declared, each with what it stands for. Declaring a text
again replaces its entry in place.
-/

namespace ShapeDispatch

/-- An entry in list form, with values for trailing arguments that a call leaves out. -/
structure Overload (β : Type) where
  /-- The signature text. -/
  arguments : String
  /-- The default values, by position. -/
  defaults : List (Value β)
  method : Implementation β

/-- What a signature text stands for. -/
inductive Entry (β : Type) where
  | method (implementation : Implementation β)
  /-- The entry of another text, or the owner of the key that the text spells. -/
  | aliasOf (target : String)
  | overload (overload : Overload β)

/-- Entries by signature text, in the order declared. -/
structure Description (β : Type) where
  entries : OrderedMap String (Entry β)

namespace Description
variable {β : Type}

/-- The description without entries. -/
def empty : Description β := ⟨.empty⟩

/-- Declares an entry. -/
def insert (d : Description β) (signature : String) (entry : Entry β) : Description β :=
  ⟨d.entries.insert signature entry⟩

/-- The entry declared under a text. -/
def find? (d : Description β) (signature : String) : Option (Entry β) := d.entries.find? signature

/-- Declares a list-form entry under its own signature text. -/
def insertOverload (d : Description β) (overload : Overload β) : Description β :=
  d.insert overload.arguments (.overload overload)

/-- The description that declares the overloads one after the other. -/
def ofOverloads (overloads : List (Overload β)) : Description β :=
  overloads.foldl insertOverload empty

/-- The entries with their texts, in the order declared. -/
def toList (d : Description β) : List (String × Entry β) := d.entries.toList

def size (d : Description β) : Nat := d.entries.size

def isEmpty (d : Description β) : Bool := d.entries.toList.isEmpty

end Description

end ShapeDispatch
