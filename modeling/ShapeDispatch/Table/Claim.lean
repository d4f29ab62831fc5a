import ShapeDispatch.Config
import ShapeDispatch.OrderedMap
import ShapeDispatch.Plan.Basic
import ShapeDispatch.Table.Basic

/-!
Claiming keys. The planned entries claim the keys of their shapes one after the other; the policy
decides who owns a key that two entries claim, and an entry may claim a key again and again.
-/

namespace ShapeDispatch

/-- The position of a planned entry. -/
abbrev Position {β : Type} (planned : List (PlannedEntry β)) := Fin planned.length

/-- Who owns each key so far, and the collisions so far. -/
structure Claims {β : Type} (planned : List (PlannedEntry β)) where
  owners : OrderedMap Key (Position planned)
  collisions : List Collision

namespace Claims
variable {β : Type} {planned : List (PlannedEntry β)}

/-- Nothing is claimed. -/
def empty : Claims planned := ⟨.empty, []⟩

/-- Gives a key to an entry, which leaves a collision with the entry it was taken from or kept by. -/
def settle (c : Claims planned) (key : Key) (owner kept dropped : Position planned) :
    Claims planned :=
  ⟨c.owners.insert key owner,
    c.collisions ++ [⟨key, (planned.get kept).source, (planned.get dropped).source⟩]⟩

/-- Claims a key for an entry. -/
def claim (policy : CollisionPolicy) (c : Claims planned) (key : Key) (claimant : Position planned) :
    Except CompileError (Claims planned) :=
  match c.owners.find? key with
  | none => .ok ⟨c.owners.insert key claimant, c.collisions⟩
  | some owner =>
    if owner = claimant then .ok c
    else
      match policy with
      | .lastDeclaredWins => .ok (c.settle key claimant claimant owner)
      | .firstDeclaredWins => .ok (c.settle key owner owner claimant)
      | .reject =>
        .error (.collision key (planned.get owner).source (planned.get claimant).source)

/-- Claims the key of a shape for an entry. -/
def claimShape (policy : CollisionPolicy) (c : Claims planned) (claimant : Position planned)
    (shape : Shape) : Except CompileError (Claims planned) :=
  match Shape.key? shape with
  | some key => c.claim policy key claimant
  | none => .error (.unexpandedShape (planned.get claimant).source (Shape.render shape))

/-- Claims the keys of one entry. -/
def claimEntry (policy : CollisionPolicy) (c : Claims planned) (claimant : Position planned) :
    Except CompileError (Claims planned) :=
  (planned.get claimant).shapes.foldlM (fun c shape => c.claimShape policy claimant shape) c

/-- Claims the keys of all entries. -/
def all (policy : CollisionPolicy) (planned : List (PlannedEntry β)) :
    Except CompileError (Claims planned) :=
  (List.finRange planned.length).foldlM (fun c claimant => c.claimEntry policy claimant) empty

end Claims

end ShapeDispatch
