import ShapeDispatch.Body
import ShapeDispatch.Config
import ShapeDispatch.Description
import ShapeDispatch.Engine
import ShapeDispatch.Toml.Reader

/-!
Description files: a description and the settings to compile it with, as a TOML document.

    [engine]
    collision_policy = "first-declared-wins"

    [[entry]]
    signature = "[number:count, array:items]"
    method = "repeat"
    defaults = [0, []]

    [[entry]]
    signature = "[string]"
    alias = "[number, array]"

A structure may be written as a table of its fields or as an array of their values. A method answers
with its label and its arguments.
-/

namespace ShapeDispatch

namespace TomlValue

def string? : TomlValue → Option String
  | string s => some s
  | _ => none

def array? : TomlValue → Option (List TomlValue)
  | array items => some items
  | _ => none

/-- The fields of a value that stands for a structure: those of a table; a date has one field, its
text. -/
def fields? : TomlValue → Option (List (String × TomlValue))
  | table fields => some fields
  | datetime text => some [(datetimeKey, string text)]
  | _ => none

/-- Reads a field that may be left out. -/
def fieldOr {α : Type} (absent : α) (read : TomlValue → Option α) : Option TomlValue → Option α
  | none => some absent
  | some v => read v

end TomlValue

namespace CollisionPolicy

/-- Whether a value says no more than that it is there. -/
def isBare : TomlValue → Bool
  | .table [] => true
  | .array [] => true
  | _ => false

/-- A policy is given by its name, alone or as the only key of a table. -/
def ofToml? : TomlValue → Option CollisionPolicy
  | .string name => ofName? name
  | .table [(name, content)] => if isBare content then ofName? name else none
  | _ => none

end CollisionPolicy

namespace EngineConfig

def hopsOfToml? : TomlValue → Option Nat
  | .integer n => if 0 ≤ n then some n.toNat else none
  | _ => none

/-- Settings that are left out keep their defaults. -/
def ofFields? (hops policy : Option TomlValue) : Option EngineConfig := do
  let hops ← TomlValue.fieldOr default.maxAliasHops hopsOfToml? hops
  let policy ← TomlValue.fieldOr default.collisionPolicy CollisionPolicy.ofToml? policy
  pure ⟨hops, policy⟩

/-- Reads settings; keys that are not known are ignored. -/
def ofToml? : TomlValue → Option EngineConfig
  | .array items => ofFields? items[0]? items[1]?
  | v => do
    let fields ← v.fields?
    ofFields? (Assoc.find? "max_alias_hops" fields) (Assoc.find? "collision_policy" fields)

/-- Reads settings from text. -/
def read? (text : String) : Option EngineConfig := do
  ofToml? (.table (← Toml.read? text))

end EngineConfig

/-- An entry of a description file. -/
structure EntrySpec where
  signature : String
  method : Option String
  aliasOf : Option String
  defaults : List JsonValue

/-- A description file. -/
structure DescriptionFile where
  config : EngineConfig
  entries : List EntrySpec

/-- Why the entries of a description file make no description. -/
inductive FileError where
  /-- Not exactly one of a method and an alias is given. -/
  | target (signature : String)
  | aliasDefaults (signature : String)
  deriving DecidableEq, Repr

def FileError.message : FileError → String
  | target signature => "entry `" ++ signature ++ "` must set exactly one of `method` or `alias`"
  | aliasDefaults signature => "alias entry `" ++ signature ++ "` cannot carry defaults"

namespace EntrySpec

/-- The names of the fields. -/
def fieldNames : List String := ["signature", "method", "alias", "defaults"]

def textOrAbsent (v : TomlValue) : Option (Option String) := v.string?.map some

def defaultsOfToml? (v : TomlValue) : Option (List JsonValue) :=
  v.array?.map (fun items => items.map TomlValue.toJson)

/-- Reads an entry; in an array, only the defaults may be left out. -/
def ofToml? : TomlValue → Option EntrySpec
  | .array (signature :: method :: target :: rest) => do
    let defaults ← TomlValue.fieldOr [] defaultsOfToml? rest.head?
    pure ⟨← signature.string?, some (← method.string?), some (← target.string?), defaults⟩
  | v => do
    let fields ← v.fields?
    if !fields.all (fun field => fieldNames.contains field.1) then none
    let signature ← (← Assoc.find? "signature" fields).string?
    let method ← TomlValue.fieldOr none textOrAbsent (Assoc.find? "method" fields)
    let target ← TomlValue.fieldOr none textOrAbsent (Assoc.find? "alias" fields)
    let defaults ← TomlValue.fieldOr [] defaultsOfToml? (Assoc.find? "defaults" fields)
    pure ⟨signature, method, target, defaults⟩

/-- An implementation that answers with its label and its arguments. -/
def echo (identity : Nat) (label : String) : Implementation Body :=
  ⟨label, identity, [], .echo label⟩

/-- The entry of a description that is meant; `identity` is that of its implementation. -/
def toEntry (identity : Nat) (spec : EntrySpec) : Except FileError (Entry Body) :=
  match spec.method, spec.aliasOf with
  | some label, none =>
    if spec.defaults.isEmpty then .ok (.method (echo identity label))
    else .ok (.overload ⟨spec.signature, spec.defaults.map Value.ofJson, echo identity label⟩)
  | none, some target =>
    if spec.defaults.isEmpty then .ok (.aliasOf target) else .error (.aliasDefaults spec.signature)
  | _, _ => .error (.target spec.signature)

end EntrySpec

namespace DescriptionFile

/-- Reads a description file; it may hold settings and entries, and nothing else. -/
def ofFields? (fields : List (String × TomlValue)) : Option DescriptionFile := do
  if !fields.all (fun field => ["engine", "entry"].contains field.1) then none
  let config ← TomlValue.fieldOr .default EngineConfig.ofToml? (Assoc.find? "engine" fields)
  let entries ← TomlValue.fieldOr [] TomlValue.array? (Assoc.find? "entry" fields)
  pure ⟨config, ← entries.mapM EntrySpec.ofToml?⟩

/-- Reads a description file from text. -/
def read? (text : String) : Option DescriptionFile := do
  ofFields? (← Toml.read? text)

/-- Declares what an entry says; it is numbered by its position. -/
def declare (d : Description Body) (numbered : EntrySpec × Nat) :
    Except FileError (Description Body) :=
  (numbered.1.toEntry numbered.2).map (d.insert numbered.1.signature)

/-- The description that the entries make, in order; the first entry that makes none is the error. -/
def description (file : DescriptionFile) : Except FileError (Description Body) :=
  file.entries.zipIdx.foldlM declare Description.empty

/-- The standard engine with the settings of a file. -/
def engine (file : DescriptionFile) : Engine Body := { Engine.standard with config := file.config }

end DescriptionFile

end ShapeDispatch
