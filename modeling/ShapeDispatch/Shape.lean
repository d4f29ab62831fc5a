import ShapeDispatch.Key
import ShapeDispatch.Signature.Basic

/-!
Expansion. A signature with optional groups or alternatives stands for several keys: its mandatory
groups followed by the first `k` optional groups make a shape for every `k`, shortest first, and a
shape stands for every choice among its alternatives, the leftmost position varying slowest.
-/

namespace ShapeDispatch

/-- The types of one call length, which may still hold alternatives. -/
abbrev Shape := List TypeToken

namespace Shape

/-- Every choice of one token at each position. -/
def choices : Shape → List (List String)
  | [] => [[]]
  | position :: rest =>
    position.choices.flatMap (fun token => (choices rest).map (fun tokens => token :: tokens))

/-- The keys that a shape stands for. -/
def keys (shape : Shape) : List Key := (choices shape).map Key.mk

/-- The token of a position without alternatives. -/
def token? : TypeToken → Option String
  | .single token => some token
  | .alternatives _ => none

/-- The key of a shape without alternatives. -/
def key? (shape : Shape) : Option Key := (shape.mapM token?).map Key.mk

/-- The shape that stands for one key. -/
def ofKey (key : Key) : Shape := key.tokens.map TypeToken.single

/-- The text of a shape, as a signature would show it. -/
def render (shape : Shape) : String := Text.bracketed (List.map TypeToken.render shape)

end Shape

namespace Signature

/-- All positions, whether optional or not. -/
def fullShape (s : Signature) : Shape := s.params.map Parameter.type

/-- The shapes that end with an optional group of `groups`, when `before` comes first. -/
def shapesBehind (before : Shape) : List Group → List Shape
  | [] => []
  | g :: rest =>
    let here := before ++ g.types
    if g.optional then here :: shapesBehind here rest else shapesBehind here rest

/-- One shape for every number of optional groups, shortest first. -/
def shapes (s : Signature) : List Shape :=
  let mandatory := s.mandatory.flatMap Group.types
  mandatory :: shapesBehind mandatory (s.groups.dropWhile (fun g => !g.optional))

/-- The keys that a signature stands for. -/
def expand (s : Signature) : List Key := s.shapes.flatMap Shape.keys

end Signature

end ShapeDispatch
