import Mathlib.Data.Fin.Basic
import Mathlib.Data.List.GetD
import ShapeDispatch.Proofs.Building
import ShapeDispatch.Proofs.Matching

/-!
Planned entries by their outlines. Of what stands before and behind an alias, only the sources and the
targets count. So two lists of entries with the same outlines settle claims for the same keys alike
(`Claims.map_claimShape_record`), and their aliases lead to the same slots
(`mapValues_slotOf_congr`).

The positions of two such lists are compared by their numbers.
-/

namespace ShapeDispatch
variable {β : Type}

theorem map_find?_congr {α α' γ : Type} {f : α → γ} {f' : α' → γ} {p : α → Bool} {p' : α' → Bool}
    {l : List α} {l' : List α'} (h : List.Forall₂ (fun a a' => f a = f' a' ∧ p a = p' a') l l') :
    (l.find? p).map f = (l'.find? p').map f' := by
  induction h with
  | nil => rfl
  | @cons a a' l l' ha _ ih =>
    rw [List.find?_cons, List.find?_cons, ← ha.2]
    cases p a with
    | true => exact congrArg some ha.1
    | false => exact ih

theorem forall₂_finRange {n m : Nat} (h : n = m) :
    List.Forall₂ (fun i i' => i.1 = i'.1) (List.finRange n) (List.finRange m) := by
  subst h
  exact List.forall₂_same.2 (fun _ _ => rfl)

/-- What is declared of an entry but for its signature and its defaults. -/
def PlannedEntry.outline (e : PlannedEntry β) : String × Target β := (e.source, e.target)

section
variable {planned planned' : List (PlannedEntry β)} {i : Position planned} {i' : Position planned'}

namespace Claims
variable {c : Claims planned} {c' : Claims planned'}

/-- The owners by number. -/
def numbers (c : Claims planned) : OrderedMap Key Nat := c.owners.mapValues (fun _ i => i.1)

/-- The owners by number, and the collisions. -/
def record (c : Claims planned) : OrderedMap Key Nat × List Collision := (c.numbers, c.collisions)

theorem map_fst_record {ε : Type} (x : Except ε (Claims planned)) :
    (x.map record).map Prod.fst = x.map numbers := by
  cases x <;> rfl

theorem find?_congr (hc : c.numbers = c'.numbers) (key : Key) :
    (c.owners.find? key).map Fin.val = (c'.owners.find? key).map Fin.val := by
  have hfind := congrArg (fun owners => owners.find? key) hc
  simpa only [numbers, OrderedMap.find?_mapValues] using hfind

theorem insert_congr (hc : c.numbers = c'.numbers) (hi : i.1 = i'.1) (key : Key) :
    (c.owners.insert key i).mapValues (fun _ i => i.1) =
      (c'.owners.insert key i').mapValues (fun _ i => i.1) := by
  rw [OrderedMap.mapValues_insert, OrderedMap.mapValues_insert, hi]
  exact congrArg (fun owners => owners.insert key i'.1) hc

end Claims

/-- What is the same of two lists of entries is the same at positions of one number. -/
theorem get_congr {γ : Type} {f : PlannedEntry β → γ} (h : planned.map f = planned'.map f)
    (hi : i.1 = i'.1) : f (planned.get i) = f (planned'.get i') := by
  obtain ⟨i, hlt⟩ := i
  obtain ⟨i', hlt'⟩ := i'
  cases hi
  exact (List.forall₂_iff_get.1 (forall₂_iff_map_eq.2 h)).2 i hlt hlt'

/-- Entries that are the same but for what no outline shows have the same outlines. -/
theorem map_outline_congr {f : PlannedEntry β → PlannedEntry β}
    (hf : ∀ e, (f e).outline = e.outline) (h : planned.map f = planned'.map f) :
    planned.map PlannedEntry.outline = planned'.map PlannedEntry.outline := by
  have houtline := congrArg (List.map PlannedEntry.outline) h
  rw [List.map_map, List.map_map] at houtline
  have hcomp : PlannedEntry.outline ∘ f = PlannedEntry.outline := funext hf
  rwa [hcomp] at houtline

variable (h : planned.map PlannedEntry.outline = planned'.map PlannedEntry.outline)
include h

theorem length_eq_of_outline : planned.length = planned'.length := by
  simpa using congrArg List.length h

theorem source_get (hi : i.1 = i'.1) : (planned.get i).source = (planned'.get i').source :=
  (congrArg Prod.fst (get_congr h hi) :)

theorem matching_val : Matching (fun i : Position planned => i.1)
    (fun i : Position planned' => i.1) where
  injective := Fin.val_injective
  injective' := Fin.val_injective
  source_eq := source_get h
  target_eq hi := (congrArg Prod.snd (get_congr h hi) :)

namespace Claims
variable {policy : CollisionPolicy} {c : Claims planned} {c' : Claims planned'}

theorem settle_congr {kept dropped : Position planned} {kept' dropped' : Position planned'}
    (hc : c.record = c'.record) (hi : i.1 = i'.1) (hkept : kept.1 = kept'.1)
    (hdropped : dropped.1 = dropped'.1) (key : Key) :
    (c.settle key i kept dropped).record = (c'.settle key i' kept' dropped').record := by
  refine Prod.ext (insert_congr (congrArg Prod.fst hc :) hi key) ?_
  have hcollisions : c.collisions = c'.collisions := (congrArg Prod.snd hc :)
  simp only [record, settle, hcollisions, source_get h hkept, source_get h hdropped]

theorem map_claim_record (hc : c.record = c'.record) (hi : i.1 = i'.1) (key : Key) :
    (c.claim policy key i).map record = (c'.claim policy key i').map record := by
  unfold claim
  obtain ⟨hnone, hnone'⟩ | ⟨owner, owner', howner, howner', hsame⟩ :=
    cases_of_optionMap_eq (find?_congr (congrArg Prod.fst hc :) key)
  · rw [hnone, hnone']
    exact congrArg Except.ok
      (Prod.ext (insert_congr (congrArg Prod.fst hc :) hi key) (congrArg Prod.snd hc :))
  · rw [howner, howner']
    have hown : owner = i ↔ owner' = i' := by rw [Fin.ext_iff, Fin.ext_iff, hsame, hi]
    by_cases howns : owner = i
    · simp only [if_pos howns, if_pos (hown.1 howns)]
      exact congrArg Except.ok hc
    · simp only [if_neg howns, if_neg (fun howns' => howns (hown.2 howns'))]
      cases policy with
      | lastDeclaredWins => exact congrArg Except.ok (settle_congr h hc hi hi hsame key)
      | firstDeclaredWins => exact congrArg Except.ok (settle_congr h hc hsame hsame hi key)
      | reject =>
        simp only [source_get h hsame, source_get h hi]
        rfl

/-- A claim is answered alike: with the same error, or with the same owner and the same collision. -/
theorem map_claimShape_record (hc : c.record = c'.record) (hi : i.1 = i'.1) (shape : Shape) :
    (c.claimShape policy i shape).map record = (c'.claimShape policy i' shape).map record := by
  unfold claimShape
  cases Shape.key? shape with
  | some key => exact map_claim_record h hc hi key
  | none =>
    simp only [source_get h hi]
    rfl

end Claims

theorem map_positionOf?_congr (text : String) :
    (positionOf? planned text).map Fin.val = (positionOf? planned' text).map Fin.val := by
  refine map_find?_congr (List.forall₂_reverse_iff.2 ?_)
  refine (forall₂_finRange (length_eq_of_outline h)).imp (fun i i' hi => ⟨hi, ?_⟩)
  rw [source_get h hi]

theorem map_terminals_congr {c : Claims planned} {c' : Claims planned'}
    (hc : c.numbers = c'.numbers) (limit : Nat) :
    (terminals c.owners limit).map (List.map Fin.val) =
      (terminals c'.owners limit).map (List.map Fin.val) := by
  have hfind := map_findTarget?_congr (map_positionOf?_congr h) (Claims.find?_congr hc)
  refine map_mapM_congr ((forall₂_finRange (length_eq_of_outline h)).imp (fun i i' hi => ?_))
  exact (matching_val h).map_chase_congr hfind limit hi

theorem idAt_congr (position : Nat) : idAt planned position = idAt planned' position := by
  have hkinds : planned.map PlannedEntry.isAlias = planned'.map PlannedEntry.isAlias := by
    refine forall₂_iff_map_eq.1 ((forall₂_iff_map_eq.2 h).imp (fun e e' he => ?_))
    have htarget : e.target = e'.target := (congrArg Prod.snd he :)
    rw [PlannedEntry.isAlias, PlannedEntry.isAlias, PlannedEntry.method?, PlannedEntry.method?,
      htarget]
  have hcount : ∀ entries : List (PlannedEntry β), idAt entries position =
      ((entries.map PlannedEntry.isAlias).take position).countP (fun isAlias => !isAlias) := by
    intro entries
    rw [idAt, ← List.map_take, List.countP_map]
    rfl
  rw [hcount, hcount, hkinds]

theorem slotOf_congr {ends : List (Position planned)} {ends' : List (Position planned')}
    (hends : ends.map Fin.val = ends'.map Fin.val) (hi : i.1 = i'.1) :
    slotOf ends i = slotOf ends' i' := by
  have hend : (ends.getD i i).1 = (ends'.getD i' i').1 := by
    rw [← List.getD_map ends _ Fin.val, ← List.getD_map ends' _ Fin.val, hends, hi]
  rw [slotOf, slotOf, source_get h hi, hend, idAt_congr h]

/-- The same owners and the same ends of their aliases make the same slots. -/
theorem mapValues_slotOf_congr {c : Claims planned} {c' : Claims planned'}
    {ends : List (Position planned)} {ends' : List (Position planned')}
    (hc : c.numbers = c'.numbers) (hends : ends.map Fin.val = ends'.map Fin.val) :
    c.owners.mapValues (fun _ owner => slotOf ends owner) =
      c'.owners.mapValues (fun _ owner => slotOf ends' owner) := by
  have hnumbers := forall₂_iff_map_eq.2 (congrArg OrderedMap.toList hc)
  refine OrderedMap.ext (forall₂_iff_map_eq.1 (hnumbers.imp (fun p p' hp => ?_)))
  exact Prod.ext (congrArg Prod.fst hp :) (slotOf_congr h hends (congrArg Prod.snd hp))

end

end ShapeDispatch
