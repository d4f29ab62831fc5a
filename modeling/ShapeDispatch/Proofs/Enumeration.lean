import Mathlib.Data.List.Range
import ShapeDispatch.Proofs.Expansion

/-!
The order in which expansion lists keys. The shapes of a signature grow by one optional group at a time,
from its mandatory positions to all of them. A shape has as many keys as its positions have choices
between them, and an index says which key it is as a number says its digits: each position has a digit
of its own, with as many values as it has choices, and the leftmost is the most significant
(`Shape.getElem?_choices`).
-/

namespace ShapeDispatch

/-- Where each part has the same length, an index consists of the number of the part and the index in
it. -/
theorem getElem?_flatMap_of_length {α γ : Type} {f : α → List γ} {n : Nat} (hn : 0 < n) :
    ∀ {l : List α}, (∀ a ∈ l, (f a).length = n) → ∀ {index : Nat} {a : α} {c : γ},
      l[index / n]? = some a → (f a)[index % n]? = some c → (l.flatMap f)[index]? = some c
  | [], _, _, _, _, ha, _ => by simp at ha
  | first :: l, h, index, a, c, ha, hc => by
    obtain ⟨hfirst, hrest⟩ := List.forall_mem_cons.1 h
    rw [List.flatMap_cons]
    rcases Nat.lt_or_ge index n with hlt | hge
    · rw [Nat.div_eq_of_lt hlt] at ha
      rw [Nat.mod_eq_of_lt hlt] at hc
      cases ha
      rw [List.getElem?_append_left (by omega), hc]
    · rw [List.getElem?_append_right (by omega), hfirst]
      refine getElem?_flatMap_of_length hn hrest (a := a) ?_ ?_
      · rw [Nat.div_eq_sub_div hn hge, List.getElem?_cons_succ] at ha
        exact ha
      · rwa [Nat.mod_eq_sub_mod hge] at hc

namespace Shape

/-- The product of the numbers of choices. -/
def keyCount : Shape → Nat
  | [] => 1
  | position :: rest => position.choices.length * keyCount rest

theorem length_choices : ∀ shape : Shape, (choices shape).length = keyCount shape
  | [] => rfl
  | position :: rest => by
    simp [choices, keyCount, List.length_flatMap, length_choices rest]

theorem keyCount_drop_dvd : ∀ (shape : Shape) (i : Nat), keyCount (shape.drop i) ∣ keyCount shape
  | _, 0 => Nat.dvd_refl _
  | [], _ + 1 => Nat.dvd_refl _
  | _ :: rest, i + 1 => Nat.dvd_mul_left_of_dvd (keyCount_drop_dvd rest i) _

/-- The digits of an index are not changed by what counts for more than they do. -/
theorem mod_div_mod {index whole below n : Nat} (h : n * below ∣ whole) :
    index % whole / below % n = index / below % n := by
  obtain ⟨above, rfl⟩ := h
  rw [Nat.mul_comm n below, Nat.mul_assoc, Nat.mod_mul_right_div_self, Nat.mod_mul_right_mod]

/-- At each position the index says which choice is made there. -/
theorem getElem?_choices : ∀ {shape : Shape} {index : Nat}, index < keyCount shape →
    ∃ tokens, (choices shape)[index]? = some tokens ∧ tokens.length = shape.length ∧
      ∀ i position, shape[i]? = some position → tokens[i]? =
        position.choices[index / keyCount (shape.drop (i + 1)) % position.choices.length]?
  | [], index, h => by
    obtain rfl : index = 0 := Nat.lt_one_iff.1 h
    exact ⟨[], rfl, rfl, by simp⟩
  | first :: rest, index, h => by
    rw [keyCount] at h
    have hpos : 0 < keyCount rest := Nat.pos_of_mul_pos_left (Nat.zero_lt_of_lt h)
    have hdigit : index / keyCount rest < first.choices.length :=
      (Nat.div_lt_iff_lt_mul hpos).2 h
    obtain ⟨tokens, htokens, hlength, hchosen⟩ := getElem?_choices (Nat.mod_lt index hpos)
    refine ⟨first.choices[index / keyCount rest] :: tokens, ?_, by simp [hlength], ?_⟩
    · refine getElem?_flatMap_of_length hpos (fun _ _ => ?_) (List.getElem?_eq_getElem hdigit) ?_
      · exact (List.length_map _).trans (length_choices rest)
      · rw [List.getElem?_map, htokens, Option.map_some]
    · intro i position hi
      cases i with
      | zero =>
        cases hi
        rw [List.drop_one, List.tail_cons, Nat.mod_eq_of_lt hdigit, List.getElem?_eq_getElem hdigit,
          List.getElem?_cons_zero]
      | succ i =>
        rw [List.getElem?_cons_succ] at hi
        have hdvd : position.choices.length * keyCount (rest.drop (i + 1)) ∣ keyCount rest := by
          obtain ⟨hlt, rfl⟩ := List.getElem?_eq_some_iff.1 hi
          have hdrop := keyCount_drop_dvd rest i
          rwa [List.drop_eq_getElem_cons hlt] at hdrop
        rw [List.getElem?_cons_succ, List.drop_succ_cons, hchosen i position hi, mod_div_mod hdvd]

/-- The keys are counted by the choices, and an index tells all choices of its key. -/
theorem getElem?_keys {shape : Shape} {index : Nat} (h : index < keyCount shape) :
    ∃ key, (keys shape)[index]? = some key ∧ key.length = shape.length ∧
      ∀ i position, shape[i]? = some position → key.tokens[i]? =
        position.choices[index / keyCount (shape.drop (i + 1)) % position.choices.length]? := by
  obtain ⟨tokens, htokens, hlength, hchosen⟩ := getElem?_choices h
  refine ⟨⟨tokens⟩, ?_, hlength, hchosen⟩
  rw [keys, List.getElem?_map, htokens, Option.map_some]

theorem length_keys (shape : Shape) : (keys shape).length = keyCount shape :=
  (List.length_map _).trans (length_choices shape)

end Shape

namespace Signature

/-- One more optional group brings its positions behind those that were there. -/
theorem positionsWith_succ {s : Signature} {count : Nat} {g : Group}
    (h : s.optionalGroups[count]? = some g) :
    s.positionsWith (count + 1) = s.positionsWith count ++ g.params := by
  simp [positionsWith, List.take_add_one, h]

theorem positionsWith_zero (s : Signature) :
    s.positionsWith 0 = s.mandatoryGroups.flatMap Group.params := by
  rw [positionsWith, List.take_zero, List.append_nil]

/-- ENUMERATION: the shapes of a signature that was read start with its mandatory positions, and each
adds the next optional group to the one before it, up to all positions. What a shape stands for is
enumerated like the numbers with a digit for each position: the choice at a position is the digit of
the index there, the leftmost the most significant. -/
theorem expand_enumerates :
    (∀ text s, read text = .ok s →
      s.shapes.length = s.optionalGroups.length + 1 ∧
      s.shapes.head? = some ((s.mandatoryGroups.flatMap Group.params).map Parameter.type) ∧
      s.shapes.IsChain (fun shape next => shape <+: next) ∧
      s.shapes.getLast? = some s.fullShape ∧
      (∀ count ≤ s.optionalGroups.length,
        s.shapes[count]? = some ((s.positionsWith count).map Parameter.type)) ∧
      s.expand = s.shapes.flatMap Shape.keys) ∧
    ∀ shape : Shape, (Shape.keys shape).length = Shape.keyCount shape ∧
      ∀ index < Shape.keyCount shape, ∃ key, (Shape.keys shape)[index]? = some key ∧
        key.length = shape.length ∧
        ∀ i position, shape[i]? = some position → key.tokens[i]? =
          position.choices[index / Shape.keyCount (shape.drop (i + 1)) %
            position.choices.length]? := by
  refine ⟨?_, fun shape => ⟨Shape.length_keys shape, fun _ => Shape.getElem?_keys⟩⟩
  intro text s h
  have hlast := optionalLast_of_read h
  have hshapes := shapes_eq hlast
  refine ⟨?_, ?_, ?_, ?_, ?_, rfl⟩
  · rw [hshapes, List.length_map, List.length_range]
  · rw [hshapes, List.head?_map, List.head?_range, if_neg (Nat.succ_ne_zero _), Option.map_some,
      positionsWith_zero]
  · rw [hshapes, List.isChain_map, List.isChain_range]
    intro count hcount
    rw [Nat.add_sub_cancel] at hcount
    rw [positionsWith_succ (List.getElem?_eq_getElem hcount), List.map_append]
    exact List.prefix_append _ _
  · rw [hshapes, List.getLast?_map, List.getLast?_range, if_neg (Nat.succ_ne_zero _),
      Option.map_some, Nat.add_sub_cancel, positionsWith_all hlast]
    rfl
  · intro count hcount
    rw [hshapes, List.getElem?_map, List.getElem?_range (Nat.lt_succ_of_le hcount), Option.map_some]

theorem expand_enumerates_mixed : ∃ s key, read "[a, b|c|d] [e|f]? [g]?" = .ok s ∧
    s.shapes.length = 3 ∧ s.shapes.getLast? = some s.fullShape ∧
    (Shape.keys s.fullShape).length = 6 ∧ (Shape.keys s.fullShape)[3]? = some key ∧
    key.tokens[1]? = some "c" ∧ key.tokens[2]? = some "f" := by
  obtain ⟨s, hs, h⟩ : ∃ s, read "[a, b|c|d] [e|f]? [g]?" = .ok s ∧
      (s.optionalGroups.length, s.fullShape) = (2, [.single "a", .alternatives ["b", "c", "d"],
        .alternatives ["e", "f"], .single "g"]) := exists_ok_of_toOption (by decide +kernel)
  obtain ⟨hgroups, hfull⟩ := Prod.ext_iff.1 h
  dsimp only at hgroups hfull
  obtain ⟨hlength, _, _, hlast, _⟩ := expand_enumerates.1 _ s hs
  obtain ⟨hcount, hchosen⟩ := expand_enumerates.2 s.fullShape
  rw [hfull] at hcount hchosen
  obtain ⟨key, hkey, _, hchoices⟩ := hchosen 3 (by decide)
  rw [hgroups] at hlength
  refine ⟨s, key, hs, hlength, hlast, ?_, ?_, hchoices 1 _ rfl, hchoices 2 _ rfl⟩
  · rw [hfull]
    exact hcount
  · rw [hfull]
    exact hkey

end Signature

end ShapeDispatch
