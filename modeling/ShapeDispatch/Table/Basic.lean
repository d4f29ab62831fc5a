import ShapeDispatch.Call
import ShapeDispatch.OrderedMap

/-!
Dispatch tables: a frozen map from keys to the implementations that handle them.
-/

namespace ShapeDispatch

/-- An implementation of a table, ready to be called. -/
structure ResolvedEntry (β : Type) where
  /-- The position among the entries of the table. -/
  id : Nat
  /-- The text that the implementation was declared under. -/
  source : String
  /-- The implementation with its parameters named. -/
  implementation : Implementation β
  paramNames : Option (List String)
  /-- The values for trailing arguments that a call leaves out. -/
  defaults : List (Value β)
  /-- The type tokens of the defaults. -/
  defaultTokens : List String

/-- The defaults behind the first `count` positions. -/
def ResolvedEntry.paddingBehind {β : Type} (e : ResolvedEntry β) (count : Nat) : List (Value β) :=
  e.defaults.drop count

/-- What a key leads to. -/
structure KeySlot where
  /-- The id of the entry that handles the key. -/
  entry : Nat
  /-- The text of the entry that declared the key, which may be an alias. -/
  declaredBy : String
  deriving DecidableEq, Repr

/-- A key that two entries claimed. -/
structure Collision where
  key : Key
  /-- The entry that owns the key. -/
  kept : String
  /-- The entry whose claim was dropped. -/
  dropped : String
  deriving DecidableEq, Repr

/-- The keys of a compiled description, its implementations, the ids of those that carry defaults,
and the collisions that were settled. -/
structure DispatchTable (β : Type) where
  keys : OrderedMap Key KeySlot
  entries : List (ResolvedEntry β)
  padded : List Nat
  collisions : List Collision

namespace DispatchTable
variable {β : Type}

/-- The entry with an id. -/
def entry? (t : DispatchTable β) (id : Nat) : Option (ResolvedEntry β) := t.entries[id]?

/-- What is known of a key. -/
def slot? (t : DispatchTable β) (key : Key) : Option KeySlot := t.keys.find? key

/-- The entry that handles a key. -/
def lookup (t : DispatchTable β) (key : Key) : Option (ResolvedEntry β) :=
  (t.slot? key).bind (fun slot => t.entry? slot.entry)

def contains (t : DispatchTable β) (key : Key) : Bool := t.keys.contains key

/-- The number of keys. -/
def size (t : DispatchTable β) : Nat := t.keys.size

def isEmpty (t : DispatchTable β) : Bool := t.keys.toList.isEmpty

/-- The entries that carry defaults, in the order declared. -/
def paddedEntries (t : DispatchTable β) : List (ResolvedEntry β) := t.padded.filterMap t.entry?

theorem entry?_mem {t : DispatchTable β} {id : Nat} {e : ResolvedEntry β}
    (h : t.entry? id = some e) : e ∈ t.entries := List.mem_of_getElem? h

theorem lookup_mem {t : DispatchTable β} {key : Key} {e : ResolvedEntry β}
    (h : t.lookup key = some e) : e ∈ t.entries := by
  obtain ⟨slot, _, hs⟩ := Option.bind_eq_some_iff.1 h
  exact t.entry?_mem hs

theorem paddedEntries_mem {t : DispatchTable β} {e : ResolvedEntry β}
    (h : e ∈ t.paddedEntries) : e ∈ t.entries := by
  obtain ⟨id, _, hid⟩ := List.mem_filterMap.1 h
  exact t.entry?_mem hid

/-- The line that shows a key: the text that declared it and, for an alias, where it leads. -/
def renderKey (t : DispatchTable β) (key : Key) (slot : KeySlot) : String :=
  let entry := t.entry? slot.entry
  let terminal := (entry.map ResolvedEntry.source).getD ""
  if terminal = slot.declaredBy then key.render ++ " => " ++ terminal
  else key.render ++ " => " ++ slot.declaredBy ++ " -> " ++ terminal

/-- One line for each key. -/
def render (t : DispatchTable β) : String :=
  "\n".intercalate (t.keys.toList.map (fun (key, slot) => t.renderKey key slot))

end DispatchTable

end ShapeDispatch
