import ShapeDispatch.Text.Bracketed

/-!
Keys: fully concrete lists of type tokens. A table is indexed by keys, and the types of a call's
arguments make a key too, so that dispatch is one look-up.
-/

namespace ShapeDispatch

/-- A list of type tokens, one for each argument position. -/
structure Key where
  tokens : List String
  deriving DecidableEq, Repr

namespace Key

/-- The number of positions. -/
def length (k : Key) : Nat := k.tokens.length

/-- Whether there is no position at all. -/
def isEmpty (k : Key) : Bool := k.tokens.isEmpty

/-- Whether `long` starts with the tokens of `short`. -/
def startsWith (long short : Key) : Bool := short.tokens.isPrefixOf long.tokens

/-- The key followed by further tokens. -/
def extended (k : Key) (tail : List String) : Key := ⟨k.tokens ++ tail⟩

/-- Keys are ordered token by token, a proper beginning first. -/
instance : Ord Key := ⟨fun a b => compare a.tokens b.tokens⟩

/-- The text of a key, such as `[array, number]`. -/
def render (k : Key) : String := Text.bracketed k.tokens

end Key

end ShapeDispatch
