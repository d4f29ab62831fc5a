import Mathlib.Data.List.Nodup
import ShapeDispatch.OrderedMap
import ShapeDispatch.Proofs.Repeats

/-!
What look-ups in an ordered map say about its list of pairs, and where its keys stand: storing pairs
one after the other leaves each key at the place of its first occurrence
(`Assoc.keys_ofPairs`), and leaves every pair as it is exactly if no key repeats
(`Assoc.ofPairs_of_nodup`, `Assoc.length_ofPairs_eq_iff`).
-/

namespace ShapeDispatch
variable {κ α : Type} [DecidableEq κ]

namespace Assoc

theorem find?_eq_none_iff {k : κ} : ∀ {m : List (κ × α)}, find? k m = none ↔ k ∉ m.map Prod.fst
  | [] => by simp [find?]
  | (k', v) :: m => by
    by_cases h : k' = k
    · simp [find?, h]
    · simp [find?, h, Ne.symm h, find?_eq_none_iff]

theorem find?_isSome_iff {k : κ} {m : List (κ × α)} :
    (find? k m).isSome = true ↔ k ∈ m.map Prod.fst := by
  rw [← not_iff_not, ← find?_eq_none_iff, Option.not_isSome_iff_eq_none]

theorem mem_of_find? {k : κ} {v : α} : ∀ {m : List (κ × α)}, find? k m = some v → (k, v) ∈ m
  | (k', v') :: m, h => by
    by_cases hk : k' = k
    · simp_all [find?]
    · rw [find?, if_neg hk] at h
      exact List.mem_cons_of_mem _ (mem_of_find? h)

theorem find?_of_mem {k : κ} {v : α} : ∀ {m : List (κ × α)},
    (m.map Prod.fst).Nodup → (k, v) ∈ m → find? k m = some v
  | (k', v') :: m, hm, h => by
    rw [List.map_cons, List.nodup_cons] at hm
    rcases List.mem_cons.1 h with h | h
    · cases h
      simp [find?]
    · have hk : k ∈ m.map Prod.fst := List.mem_map.2 ⟨_, h, rfl⟩
      have hne : k' ≠ k := by
        rintro rfl
        exact hm.1 hk
      rw [find?, if_neg hne]
      exact find?_of_mem hm.2 h

theorem find?_map {γ : Type} (f : κ → α → γ) (k : κ) : ∀ m : List (κ × α),
    find? k (m.map (fun p => (p.1, f p.1 p.2))) = (find? k m).map (f k)
  | [] => rfl
  | (k', v) :: m => by
    by_cases h : k' = k
    · simp [find?, h]
    · simp [find?, h, find?_map f k m]

theorem insert_of_not_mem {k : κ} {v : α} : ∀ {m : List (κ × α)}, k ∉ m.map Prod.fst →
    insert k v m = m ++ [(k, v)]
  | [], _ => rfl
  | (k', v') :: m, h => by
    rw [List.map_cons, List.mem_cons, not_or] at h
    rw [insert, if_neg (Ne.symm h.1), insert_of_not_mem h.2, List.cons_append]

/-- Storing a value where it is stored already changes nothing. -/
theorem insert_of_find? {k : κ} {v : α} : ∀ {m : List (κ × α)}, find? k m = some v →
    insert k v m = m
  | (k', v') :: m, h => by
    by_cases hk : k' = k
    · simp_all [find?, insert]
    · rw [find?, if_neg hk] at h
      rw [insert, if_neg hk, insert_of_find? h]

theorem map_insert {γ : Type} (f : κ → α → γ) (k : κ) (v : α) : ∀ m : List (κ × α),
    (insert k v m).map (fun p => (p.1, f p.1 p.2)) =
      insert k (f k v) (m.map (fun p => (p.1, f p.1 p.2)))
  | [] => rfl
  | (k', v') :: m => by
    by_cases h : k' = k
    · simp [insert, h]
    · simp [insert, h, map_insert f k v m]

/-- Storing pairs into a map leaves each key at the place of its first occurrence. -/
theorem keys_foldl_insert : ∀ (pairs m : List (κ × α)) (done : List κ),
    m.map Prod.fst = done.eraseDups →
      (pairs.foldl (fun m p => insert p.1 p.2 m) m).map Prod.fst =
        (done ++ pairs.map Prod.fst).eraseDups
  | [], m, done, h => by simpa using h
  | p :: pairs, m, done, h => by
    have hstep : (insert p.1 p.2 m).map Prod.fst = (done ++ [p.1]).eraseDups := by
      rw [keys_insert, eraseDups_concat, h]
      simp only [List.mem_eraseDups]
    rw [List.foldl_cons, keys_foldl_insert pairs _ (done ++ [p.1]) hstep]
    simp

theorem keys_ofPairs (pairs : List (κ × α)) :
    (ofPairs pairs).map Prod.fst = (pairs.map Prod.fst).eraseDups := by
  rw [ofPairs, keys_foldl_insert pairs [] [] (by simp), List.nil_append]

theorem foldl_insert_of_nodup : ∀ (pairs m : List (κ × α)),
    ((m ++ pairs).map Prod.fst).Nodup → pairs.foldl (fun m p => insert p.1 p.2 m) m = m ++ pairs
  | [], m, _ => by simp
  | p :: pairs, m, h => by
    have hp : p.1 ∉ m.map Prod.fst := by
      intro hm
      rw [List.map_append, List.nodup_append] at h
      exact h.2.2 p.1 hm p.1 (by simp) rfl
    rw [List.foldl_cons, insert_of_not_mem hp, foldl_insert_of_nodup pairs _ (by simpa using h)]
    simp

/-- Pairs with different keys are stored as they are. -/
theorem ofPairs_of_nodup {pairs : List (κ × α)} (h : (pairs.map Prod.fst).Nodup) :
    ofPairs pairs = pairs := by
  rw [ofPairs, foldl_insert_of_nodup pairs [] (by simpa using h), List.nil_append]

theorem nodup_ofPairs (pairs : List (κ × α)) : ((ofPairs pairs).map Prod.fst).Nodup := by
  suffices h : ∀ (pairs m : List (κ × α)), (m.map Prod.fst).Nodup →
      ((pairs.foldl (fun m p => insert p.1 p.2 m) m).map Prod.fst).Nodup from
    h pairs [] (by simp)
  intro pairs
  induction pairs with
  | nil => intro m h; exact h
  | cons p pairs ih => intro m h; exact ih _ (nodup_insert p.1 p.2 m h)

/-- A pair is lost as soon as a key repeats. -/
theorem length_ofPairs_eq_iff {pairs : List (κ × α)} :
    (ofPairs pairs).length = pairs.length ↔ (pairs.map Prod.fst).Nodup := by
  constructor
  · intro h
    have hkeys := keys_ofPairs pairs
    have hsame : (pairs.map Prod.fst).eraseDups = pairs.map Prod.fst := by
      refine (eraseDups_sublist _).eq_of_length ?_
      rw [← hkeys, List.length_map, List.length_map, h]
    rw [← hsame, ← hkeys]
    exact nodup_ofPairs pairs
  · intro h
    rw [ofPairs_of_nodup h]

end Assoc

namespace OrderedMap

omit [DecidableEq κ] in
theorem ext {m m' : OrderedMap κ α} (h : m.toList = m'.toList) : m = m' := by
  cases m
  cases m'
  cases h
  rfl

theorem contains_iff {m : OrderedMap κ α} {k : κ} : m.contains k = true ↔ k ∈ m.keys :=
  Assoc.find?_isSome_iff

theorem find?_eq_some_iff {m : OrderedMap κ α} {k : κ} {v : α} :
    m.find? k = some v ↔ (k, v) ∈ m.toList :=
  ⟨Assoc.mem_of_find?, Assoc.find?_of_mem m.nodup⟩

theorem find?_eq_none_iff {m : OrderedMap κ α} {k : κ} : m.find? k = none ↔ k ∉ m.keys :=
  Assoc.find?_eq_none_iff

theorem find?_mapValues {γ : Type} (f : κ → α → γ) (m : OrderedMap κ α) (k : κ) :
    (m.mapValues f).find? k = (m.find? k).map (f k) :=
  Assoc.find?_map f k m.toList

omit [DecidableEq κ] in
theorem keys_mapValues {γ : Type} (f : κ → α → γ) (m : OrderedMap κ α) :
    (m.mapValues f).keys = m.keys := by
  simp [keys, mapValues]

theorem mapValues_insert {γ : Type} (f : κ → α → γ) (m : OrderedMap κ α) (k : κ) (v : α) :
    (m.insert k v).mapValues f = (m.mapValues f).insert k (f k v) :=
  ext (Assoc.map_insert f k v m.toList)

theorem insert_of_find? {m : OrderedMap κ α} {k : κ} {v : α} (h : m.find? k = some v) :
    m.insert k v = m :=
  ext (Assoc.insert_of_find? h)

theorem keys_insert (m : OrderedMap κ α) (k : κ) (v : α) :
    (m.insert k v).keys = if k ∈ m.keys then m.keys else m.keys ++ [k] :=
  Assoc.keys_insert k v m.toList

end OrderedMap

end ShapeDispatch
