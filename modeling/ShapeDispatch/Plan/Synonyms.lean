import ShapeDispatch.Plan.Basic

/-!
Synonyms: type tokens that are replaced by others. Alternatives that become the same are merged, in
the order of their first occurrence, and a single one that is left stands alone.
-/

namespace ShapeDispatch

/-- What each replaced token becomes. -/
abbrev Synonyms := OrderedMap String String

namespace Synonyms

/-- What a token becomes. -/
def replace (synonyms : Synonyms) (token : String) : String := (synonyms.find? token).getD token

/-- What the type of a position becomes. -/
def replaceType (synonyms : Synonyms) : TypeToken → TypeToken
  | .single token => .single (synonyms.replace token)
  | .alternatives tokens =>
    match (tokens.map synonyms.replace).eraseDups with
    | [only] => .single only
    | several => .alternatives several

def replaceParameter (synonyms : Synonyms) (p : Parameter) : Parameter :=
  { p with type := synonyms.replaceType p.type }

def replaceGroup (synonyms : Synonyms) (g : Group) : Group :=
  { g with params := g.params.map synonyms.replaceParameter }

def replaceSignature (synonyms : Synonyms) (s : Signature) : Signature :=
  { s with groups := s.groups.map synonyms.replaceGroup }

def replaceShape (synonyms : Synonyms) (shape : Shape) : Shape := shape.map synonyms.replaceType

/-- Replaces the tokens in the signature and the shapes of an entry. -/
def replaceEntry {β : Type} (synonyms : Synonyms) (e : PlannedEntry β) : PlannedEntry β :=
  { e with
    signature := synonyms.replaceSignature e.signature
    shapes := e.shapes.map synonyms.replaceShape }

/-- A synonym whose result is replaced in turn, with that result. Of several this is the one that was
given first; where synonyms are kept in another order, another one of them may be named. -/
def chained? (synonyms : Synonyms) : Option (String × String) :=
  synonyms.toList.find? (fun pair => pair.1 != pair.2 && synonyms.contains pair.2)

end Synonyms

end ShapeDispatch
