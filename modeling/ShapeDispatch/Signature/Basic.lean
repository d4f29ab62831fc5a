import ShapeDispatch.Text.Bracketed

/-!
Signatures: bracket groups of type tokens. Groups marked `?` are optional and come last; a position
may list alternatives; a position may bind a parameter name, or a projection after `>` lists the
names of all positions at once.

    [array:list] [object:options]?
    [string|array, number]
    [array] [callable, number]? > [list] [callback, delay]?
-/

namespace ShapeDispatch

/-- What one position accepts: one type token, or any of several. -/
inductive TypeToken where
  | single (token : String)
  | alternatives (tokens : List String)
  deriving DecidableEq, Repr

namespace TypeToken

/-- The tokens that the position accepts, as listed. -/
def choices : TypeToken → List String
  | single token => [token]
  | alternatives tokens => tokens

def isAlternatives : TypeToken → Bool
  | single _ => false
  | alternatives _ => true

def render : TypeToken → String
  | single token => token
  | alternatives tokens => "|".intercalate tokens

end TypeToken

/-- One position of a signature. -/
structure Parameter where
  type : TypeToken
  name : Option String
  deriving DecidableEq, Repr

/-- The text of a position: its type, then its name after a colon. -/
def Parameter.render (p : Parameter) : String :=
  match p.name with
  | some name => p.type.render ++ ":" ++ name
  | none => p.type.render

/-- A bracket group of positions. -/
structure Group where
  params : List Parameter
  optional : Bool
  deriving DecidableEq, Repr

namespace Group

/-- The types of the group's positions. -/
def types (g : Group) : List TypeToken := g.params.map Parameter.type

def render (g : Group) : String :=
  Text.bracketed (g.params.map Parameter.render) ++ (if g.optional then "?" else "")

end Group

/-- Groups of positions, and the names of a projection if there is one. -/
structure Signature where
  groups : List Group
  projection : Option (List String)
  deriving DecidableEq, Repr

namespace Signature

/-- All positions, in order. -/
def params (s : Signature) : List Parameter := s.groups.flatMap Group.params

/-- The number of positions. -/
def length (s : Signature) : Nat := s.params.length

def isEmpty (s : Signature) : Bool := s.params.isEmpty

/-- The groups before the first optional one. -/
def mandatory (s : Signature) : List Group := s.groups.takeWhile (fun g => !g.optional)

/-- The number of positions before the first optional group. -/
def mandatoryLength (s : Signature) : Nat := (s.mandatory.flatMap Group.params).length

/-- The names that a call's values are bound to, in order of position; none for a call that stays
positional. A projection wins over names bound at the positions. -/
def paramNames (s : Signature) : List String :=
  match s.projection with
  | some names => names
  | none => s.params.filterMap Parameter.name

def hasAlternatives (s : Signature) : Bool := s.params.any (fun p => p.type.isAlternatives)

/-- The text of a signature: its groups, then its projection as one group of names. -/
def render (s : Signature) : String :=
  " ".intercalate (s.groups.map Group.render) ++
    match s.projection with
    | some names => " > " ++ Text.bracketed names
    | none => ""

end Signature

end ShapeDispatch
