import ShapeDispatch.Classifier.Basic
import ShapeDispatch.Table.Alias

/-!
Building tables: claim the keys, follow the aliases, then name the parameters of every implementation
and classify its defaults.
-/

namespace ShapeDispatch

section
variable {β : Type}

/-- The entry of a table that provides an implementation of a planned entry. -/
def resolveMethod (classifier : Classifier β) (id : Nat) (e : PlannedEntry β)
    (implementation : Implementation β) : ResolvedEntry β where
  id := id
  source := e.source
  implementation := implementation.bind e.paramNames
  paramNames := if e.paramNames.isEmpty then none else some e.paramNames
  defaults := e.defaults
  defaultTokens := e.defaults.map classifier.classify

/-- The entries of a table: those of the planned entries that provide an implementation, numbered in
order from `id`. -/
def resolveMethods (classifier : Classifier β) (id : Nat) :
    List (PlannedEntry β) → List (ResolvedEntry β)
  | [] => []
  | e :: rest =>
    match e.method? with
    | some implementation =>
      resolveMethod classifier id e implementation :: resolveMethods classifier (id + 1) rest
    | none => resolveMethods classifier id rest

/-- The id of the implementation at a position: how many there are before it. -/
def idAt (planned : List (PlannedEntry β)) (position : Nat) : Nat :=
  (planned.take position).countP (fun e => !e.isAlias)

/-- The slot of a key that `owner` declared. -/
def slotOf {planned : List (PlannedEntry β)} (terminals : List (Position planned))
    (owner : Position planned) : KeySlot :=
  ⟨idAt planned (terminals.getD owner owner), (planned.get owner).source⟩

/-- Builds the table of planned entries. -/
def buildTable (classifier : Classifier β) (config : EngineConfig)
    (planned : List (PlannedEntry β)) : Except CompileError (DispatchTable β) := do
  let claims ← Claims.all config.collisionPolicy planned
  let ends ← (terminals claims.owners config.maxAliasHops).mapError CompileError.unresolved
  let entries := resolveMethods classifier 0 planned
  .ok {
    keys := claims.owners.mapValues (fun _ owner => slotOf ends owner)
    entries := entries
    padded := (entries.filter (fun e => !e.defaults.isEmpty)).map ResolvedEntry.id
    collisions := claims.collisions }

end

end ShapeDispatch
