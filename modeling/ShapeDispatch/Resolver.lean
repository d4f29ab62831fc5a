import ShapeDispatch.Classifier.Basic
import ShapeDispatch.Table.Basic

/-!
Dispatch: the types of the arguments make a key, and the table says who handles it. Where no entry
does, the entries with defaults are asked in turn: the first one for which the call, filled up with
that entry's defaults, would be handled by that very entry is selected. Whatever is selected belongs
to the table (`Resolver.select_mem`) and is filled up from its own defaults
(`Resolver.select_padding`).
-/

namespace ShapeDispatch

/-- A table together with the classifier that it was built for. -/
structure Resolver (β : Type) where
  table : DispatchTable β
  classifier : Classifier β

/-- The entry that handles a call. -/
structure Selection (β : Type) where
  entry : ResolvedEntry β
  /-- The key under which the entry was found. -/
  key : Key
  /-- The defaults that fill up the arguments. -/
  padding : List (Value β)

/-- The selection of an entry for a call with this key whose arguments it fills up, if the table
leads back from the longer key to the entry. -/
def DispatchTable.selectPadded? {β : Type} (t : DispatchTable β) (key : Key)
    (e : ResolvedEntry β) : Option (Selection β) :=
  let tail := e.defaultTokens.drop key.length
  let padded := key.extended tail
  if !tail.isEmpty ∧ (t.lookup padded).map ResolvedEntry.id = some e.id then
    some ⟨e, padded, e.paddingBehind key.length⟩
  else none

namespace Resolver
variable {β : Type}

/-- The key of a call. -/
def typeKey (r : Resolver β) (args : List (Value β)) : Key := r.classifier.typeKey args

/-- Finds the entry that handles a call. -/
def select (r : Resolver β) (args : List (Value β)) : Except DispatchError (Selection β) :=
  let key := r.typeKey args
  match r.table.lookup key with
  | some entry => .ok ⟨entry, key, entry.paddingBehind args.length⟩
  | none =>
    match r.table.paddedEntries.findSome? (r.table.selectPadded? key) with
    | some selection => .ok selection
    | none => .error (.miss key)

/-- Dispatches a call and runs what handles it. -/
def call (run : Runner β) (r : Resolver β) (args : List (Value β)) :
    Except DispatchError (Value β) :=
  match r.select args with
  | .error e => .error e
  | .ok selection => selection.entry.implementation.call run (args ++ selection.padding)

theorem typeKey_length (r : Resolver β) (args : List (Value β)) :
    (r.typeKey args).length = args.length := by
  simp [typeKey, Classifier.typeKey, Key.length]

/-- A selection comes from the key itself or from an entry with defaults. -/
theorem select_cases {r : Resolver β} {args : List (Value β)} {s : Selection β}
    (h : r.select args = .ok s) :
    (r.table.lookup (r.typeKey args) = some s.entry ∧ s.key = r.typeKey args ∧
        s.padding = s.entry.paddingBehind args.length) ∨
      (s.entry ∈ r.table.paddedEntries ∧
        r.table.selectPadded? (r.typeKey args) s.entry = some s) := by
  unfold select at h
  simp only at h
  split at h
  · next e he =>
    cases h
    exact Or.inl ⟨he, rfl, rfl⟩
  · split at h
    · next s' hs =>
      cases h
      obtain ⟨e, he, hsel⟩ := List.exists_of_findSome?_eq_some hs
      have hsame : s.entry = e := by
        unfold DispatchTable.selectPadded? at hsel
        simp only at hsel
        split at hsel
        · cases hsel
          rfl
        · cases hsel
      exact Or.inr ⟨hsame ▸ he, hsame ▸ hsel⟩
    · cases h

theorem select_mem {r : Resolver β} {args : List (Value β)} {s : Selection β}
    (h : r.select args = .ok s) : s.entry ∈ r.table.entries := by
  rcases select_cases h with ⟨hl, _, _⟩ | ⟨hp, _⟩
  · exact r.table.lookup_mem hl
  · exact r.table.paddedEntries_mem hp

theorem select_padding {r : Resolver β} {args : List (Value β)} {s : Selection β}
    (h : r.select args = .ok s) : s.padding = s.entry.paddingBehind args.length := by
  rcases select_cases h with ⟨_, _, hp⟩ | ⟨_, hsel⟩
  · exact hp
  · unfold DispatchTable.selectPadded? at hsel
    simp only at hsel
    split at hsel
    · rw [← typeKey_length r args]
      exact (congrArg Selection.padding (Option.some.inj hsel)).symm
    · cases hsel

end Resolver

end ShapeDispatch
