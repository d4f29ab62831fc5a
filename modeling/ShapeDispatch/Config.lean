import ShapeDispatch.Text.Quoted

/-!
The settings of an engine, and how they are written down.
-/

namespace ShapeDispatch

/-- Who owns a key that two entries claim. -/
inductive CollisionPolicy where
  | lastDeclaredWins
  | firstDeclaredWins
  /-- Nobody: compilation fails. -/
  | reject
  deriving DecidableEq, Repr

namespace CollisionPolicy

/-- The name of a policy in a configuration. -/
def name : CollisionPolicy → String
  | lastDeclaredWins => "last-declared-wins"
  | firstDeclaredWins => "first-declared-wins"
  | reject => "reject"

/-- The policy of that name. -/
def ofName? (text : String) : Option CollisionPolicy :=
  [lastDeclaredWins, firstDeclaredWins, reject].find? (fun policy => policy.name == text)

/-- The text that shows a policy to a developer. -/
def debugText : CollisionPolicy → String
  | lastDeclaredWins => "LastDeclaredWins"
  | firstDeclaredWins => "FirstDeclaredWins"
  | reject => "Reject"

end CollisionPolicy

/-- The settings of an engine. -/
structure EngineConfig where
  /-- How many aliases are followed from one entry. -/
  maxAliasHops : Nat
  collisionPolicy : CollisionPolicy
  deriving DecidableEq, Repr

namespace EngineConfig

/-- Four hops, and the last declaration wins. -/
def default : EngineConfig := ⟨4, .lastDeclaredWins⟩

/-- The largest whole number that a configuration text can hold. -/
def integerLimit : Nat := 0x7fffffffffffffff

/-- The settings as configuration text, if the hop limit can be written there. -/
def render? (c : EngineConfig) : Option String :=
  if integerLimit < c.maxAliasHops then none
  else some ("max_alias_hops = " ++ c.maxAliasHops.repr ++ "\ncollision_policy = \"" ++
    c.collisionPolicy.name ++ "\"\n")

/-- The text that shows the settings to a developer. -/
def debugText (c : EngineConfig) : String :=
  "EngineConfig \x7b max_alias_hops: " ++ c.maxAliasHops.repr ++ ", collision_policy: " ++
    c.collisionPolicy.debugText ++ " \x7d"

end EngineConfig

end ShapeDispatch
