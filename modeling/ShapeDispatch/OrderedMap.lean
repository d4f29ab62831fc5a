/-!
Maps that remember the order in which their keys arrived. Storing under a known key replaces the
value and keeps the key's place; a new key goes last. `Assoc` holds the operations on plain lists of
pairs, `OrderedMap` the same lists together with the fact that no key occurs twice
(`Assoc.keys_insert`, `Assoc.nodup_insert`).
-/

namespace ShapeDispatch

namespace Assoc
variable {κ α : Type} [DecidableEq κ]

/-- The value stored under `k`. -/
def find? (k : κ) : List (κ × α) → Option α
  | [] => none
  | (k', v) :: rest => if k' = k then some v else find? k rest

/-- Stores `v` under `k`: a known key keeps its place, a new key goes last. -/
def insert (k : κ) (v : α) : List (κ × α) → List (κ × α)
  | [] => [(k, v)]
  | (k', v') :: rest => if k' = k then (k', v) :: rest else (k', v') :: insert k v rest

/-- The map that results from storing the pairs one after the other. -/
def ofPairs (pairs : List (κ × α)) : List (κ × α) :=
  pairs.foldl (fun m p => insert p.1 p.2 m) []

theorem keys_insert (k : κ) (v : α) (m : List (κ × α)) :
    (insert k v m).map Prod.fst =
      if k ∈ m.map Prod.fst then m.map Prod.fst else m.map Prod.fst ++ [k] := by
  induction m with
  | nil => simp [insert]
  | cons p rest ih =>
    obtain ⟨k', v'⟩ := p
    by_cases h : k' = k
    · simp [insert, h]
    · have hne : ¬ k = k' := fun e => h e.symm
      by_cases hm : k ∈ rest.map Prod.fst <;> simp_all [insert]

theorem nodup_insert (k : κ) (v : α) (m : List (κ × α)) (h : (m.map Prod.fst).Nodup) :
    ((insert k v m).map Prod.fst).Nodup := by
  rw [keys_insert]
  split
  · exact h
  · next hk =>
    rw [List.nodup_append]
    refine ⟨h, by simp, ?_⟩
    intro a ha b hb
    rw [List.mem_singleton] at hb
    rintro rfl
    exact hk (hb ▸ ha)

/-- What was stored last is found; all other keys are as before. -/
theorem find?_insert (k k' : κ) (v : α) (m : List (κ × α)) :
    find? k' (insert k v m) = if k = k' then some v else find? k' m := by
  induction m with
  | nil => simp [insert, find?]
  | cons p rest ih =>
    obtain ⟨k₀, v₀⟩ := p
    by_cases h : k₀ = k
    · by_cases h' : k = k' <;> simp [insert, find?, h, h']
    · by_cases h' : k₀ = k'
      · subst h'
        simp [insert, find?, h, Ne.symm h]
      · simp [insert, find?, h, h', ih]

end Assoc

/-- A map that lists its keys in the order in which they were first stored. -/
structure OrderedMap (κ α : Type) where
  /-- The pairs, oldest key first. -/
  toList : List (κ × α)
  nodup : (toList.map Prod.fst).Nodup

namespace OrderedMap
variable {κ α : Type}

/-- The map without keys. -/
def empty : OrderedMap κ α := ⟨[], by simp⟩

/-- The keys, oldest first. -/
def keys (m : OrderedMap κ α) : List κ := m.toList.map Prod.fst

/-- The number of keys. -/
def size (m : OrderedMap κ α) : Nat := m.toList.length

/-- Applies `f` to every value, given its key; keys and order stay. -/
def mapValues {γ : Type} (f : κ → α → γ) (m : OrderedMap κ α) : OrderedMap κ γ :=
  ⟨m.toList.map (fun p => (p.1, f p.1 p.2)), by
    have h : (m.toList.map (fun p => (p.1, f p.1 p.2))).map Prod.fst = m.toList.map Prod.fst := by
      simp
    rw [h]
    exact m.nodup⟩

variable [DecidableEq κ]

/-- The value stored under `k`. -/
def find? (m : OrderedMap κ α) (k : κ) : Option α := Assoc.find? k m.toList

/-- Whether a value is stored under `k`. -/
def contains (m : OrderedMap κ α) (k : κ) : Bool := (m.find? k).isSome

/-- Stores `v` under `k`. -/
def insert (m : OrderedMap κ α) (k : κ) (v : α) : OrderedMap κ α :=
  ⟨Assoc.insert k v m.toList, Assoc.nodup_insert k v m.toList m.nodup⟩

/-- The map that results from storing the pairs one after the other. -/
def ofPairs (pairs : List (κ × α)) : OrderedMap κ α :=
  pairs.foldl (fun m p => m.insert p.1 p.2) empty

theorem find?_insert (m : OrderedMap κ α) (k k' : κ) (v : α) :
    (m.insert k v).find? k' = if k = k' then some v else m.find? k' :=
  Assoc.find?_insert k k' v m.toList

end OrderedMap

end ShapeDispatch
