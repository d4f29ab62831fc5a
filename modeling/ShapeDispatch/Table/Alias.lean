import ShapeDispatch.Table.Claim

/-!
Following aliases. The target of an alias is the text of another entry or, failing that, a signature
text that spells a single key, which stands for the owner of that key. A chain of aliases is followed
for a limited number of hops and may not meet an entry twice.
-/

namespace ShapeDispatch

section
variable {β : Type} {planned : List (PlannedEntry β)}

/-- The last entry that was declared under a text. -/
def positionOf? (planned : List (PlannedEntry β)) (text : String) : Option (Position planned) :=
  (List.finRange planned.length).reverse.find? (fun i => (planned.get i).source == text)

/-- The only key that a signature text spells. -/
def spelledKey? (text : String) : Option Key :=
  match Signature.read text with
  | .error _ => none
  | .ok signature =>
    match signature.expand with
    | [key] => some key
    | _ => none

/-- The entry that the target of an alias names. -/
def findTarget? (owners : OrderedMap Key (Position planned)) (text : String) :
    Option (Position planned) :=
  match positionOf? planned text with
  | some position => some position
  | none => (spelledKey? text).bind owners.find?

/-- The texts under which the entries at these positions were declared. -/
def sourcesAt (planned : List (PlannedEntry β)) (positions : List (Position planned)) :
    List String :=
  positions.map (fun i => (planned.get i).source)

/-- Follows aliases from `current`, with `hops` hops left of `limit`, after the entries `visited`,
which begin with `start` and end with `current`. -/
def chaseFrom (find? : String → Option (Position planned)) (limit : Nat) (start : Position planned) :
    (hops : Nat) → (visited : List (Position planned)) → (current : Position planned) →
      Except AliasError (Position planned)
  | hops, visited, current =>
    match (planned.get current).target with
    | .method _ => .ok current
    | .aliasOf target =>
      match hops with
      | 0 => .error (.hopLimitExceeded (planned.get start).source limit)
      | hops + 1 =>
        match find? target with
        | none => .error (.missingTarget (planned.get current).source target)
        | some next =>
          if next ∈ visited then
            .error (.cycle (planned.get start).source (sourcesAt planned (visited ++ [next])))
          else chaseFrom find? limit start hops (visited ++ [next]) next

/-- The entry with an implementation that the aliases from `start` lead to. -/
def chase (find? : String → Option (Position planned)) (limit : Nat) (start : Position planned) :
    Except AliasError (Position planned) :=
  chaseFrom find? limit start limit [start] start

/-- Where each entry leads; the first one that leads nowhere is the error. -/
def terminals (owners : OrderedMap Key (Position planned)) (limit : Nat) :
    Except AliasError (List (Position planned)) :=
  (List.finRange planned.length).mapM (chase (findTarget? owners) limit)

end

end ShapeDispatch
