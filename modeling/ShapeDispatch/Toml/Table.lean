import ShapeDispatch.OrderedMap
import ShapeDispatch.Toml.Basic

/-!
Tables under construction. A table may come into being because a longer key passes through it, either
in a header or as dots in a key; only then may it still be opened by a header of its own, or take
further dotted keys. Everything is stated once.
-/

namespace ShapeDispatch.Toml

/-- A table under construction: whether it only came up in a longer key, and whether that key was a
dotted one. -/
structure Draft (ι : Type) where
  implicit : Bool
  dotted : Bool
  items : List (String × ι)

/-- What stands under a key of a table under construction. -/
inductive Item where
  | value (v : TomlValue)
  | table (t : Draft Item)
  /-- The tables of a list of tables, oldest first. -/
  | tables (rows : List (Draft Item))

/-- A table that is opened on its own account. -/
def Draft.opened : Draft Item := ⟨false, false, []⟩

namespace Draft

/-- Stores an item. -/
def store (t : Draft Item) (key : String) (item : Item) : Draft Item :=
  { t with items := Assoc.insert key item t.items }

/-- Changes the table that a path leads to. What is missing on the way comes into being, a list of
tables stands for its last one, and dots may pass only through tables that came into being that
way or by a longer header. -/
def change (dotted : Bool) (f : Draft Item → Option (Draft Item)) :
    List String → Draft Item → Option (Draft Item)
  | [], t => f t
  | key :: path, t =>
    match Assoc.find? key t.items with
    | none => (change dotted f path ⟨true, dotted, []⟩).map (fun child => t.store key (.table child))
    | some (.value _) => none
    | some (.tables rows) =>
      match rows.getLast? with
      | none => none
      | some row =>
        (change dotted f path row).map (fun row => t.store key (.tables (rows.dropLast ++ [row])))
    | some (.table child) =>
      if dotted && !child.implicit then none
      else (change dotted f path child).map (fun child => t.store key (.table child))

/-- Stores a new item under the last part of a key. -/
def assign (t : Draft Item) (path : List String) (key : String) (value : TomlValue) :
    Option (Draft Item) :=
  change true
    (fun table =>
      if table.dotted == path.isEmpty ∨ (Assoc.find? key table.items).isSome then none
      else some (table.store key (.value value)))
    path t

/-- Stores the pairs of keys and values one after the other. -/
def assignAll (t : Draft Item) (pairs : List (List String × TomlValue)) : Option (Draft Item) :=
  pairs.foldlM (fun t (key, value) =>
    match key.getLast? with
    | none => none
    | some last => t.assign key.dropLast last value) t

end Draft

mutual

/-- The value that an item states. -/
def Item.finish : Item → TomlValue
  | .value v => v
  | .table ⟨_, _, items⟩ => .table (finishItems items)
  | .tables rows => .array (finishRows rows)

/-- The values that the rows of a list of tables state. -/
def finishRows : List (Draft Item) → List TomlValue
  | [] => []
  | ⟨_, _, items⟩ :: rest => .table (finishItems items) :: finishRows rest

/-- The fields that the items of a table state. -/
def finishItems : List (String × Item) → List (String × TomlValue)
  | [] => []
  | (key, item) :: rest => (key, item.finish) :: finishItems rest

end

/-- A document under construction, and the path of the header that was opened last. -/
structure Document where
  root : Draft Item
  path : List String

namespace Document

/-- Nothing is stated yet; what comes first belongs to the document itself. -/
def start : Document := ⟨.opened, []⟩

/-- Changes what stands under the last part of a header's path, and opens it. -/
def enter (d : Document) (path : List String) (f : Option Item → Option Item) : Option Document := do
  let key ← path.getLast?
  let root ← Draft.change false
    (fun parent => (f (Assoc.find? key parent.items)).map (parent.store key)) path.dropLast d.root
  pure ⟨root, path⟩

/-- Opens the table of a header. -/
def enterTable (d : Document) (path : List String) : Option Document :=
  d.enter path (fun
    | none => some (.table .opened)
    | some (.table t) =>
      if t.implicit && !t.dotted then some (.table { t with implicit := false }) else none
    | some _ => none)

/-- Opens a new table at the end of the list that a header names. -/
def enterRow (d : Document) (path : List String) : Option Document :=
  d.enter path (fun
    | none => some (.tables [.opened])
    | some (.tables rows) => some (.tables (rows ++ [.opened]))
    | some _ => none)

/-- States a value in the table that was opened last. -/
def assign (d : Document) (key : List String) (value : TomlValue) : Option Document :=
  (Draft.change false (fun t => t.assignAll [(key, value)]) d.path d.root).map
    (fun root => { d with root := root })

end Document

end ShapeDispatch.Toml
