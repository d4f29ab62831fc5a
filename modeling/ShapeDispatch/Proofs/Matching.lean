import ShapeDispatch.Proofs.Chasing

/-!
Two lists of planned entries side by side. Their positions are matched by marks: under the same mark
stand entries with the same source and the same target (`Matching`). As long as the targets of
aliases are found under the same marks, aliases lead to entries under the same mark
(`Matching.follows_congr`), and a chase takes as many hops on either side and fails with the same
error (`Matching.map_chase_congr`).
-/

namespace ShapeDispatch
variable {β γ : Type} {planned planned' : List (PlannedEntry β)} {mark : Position planned → γ}
  {mark' : Position planned' → γ}

/-- Positions under the same mark have the same source and target, and each side uses a mark once. -/
structure Matching (mark : Position planned → γ) (mark' : Position planned' → γ) : Prop where
  injective : Function.Injective mark
  injective' : Function.Injective mark'
  source_eq : ∀ {i i'}, mark i = mark' i' → (planned.get i).source = (planned'.get i').source
  target_eq : ∀ {i i'}, mark i = mark' i' → (planned.get i).target = (planned'.get i').target

/-- Alias targets are found under the same marks if texts and keys are. -/
theorem map_findTarget?_congr {owners : OrderedMap Key (Position planned)}
    {owners' : OrderedMap Key (Position planned')}
    (hposition : ∀ text, (positionOf? planned text).map mark = (positionOf? planned' text).map mark')
    (howner : ∀ key, (owners.find? key).map mark = (owners'.find? key).map mark') (text : String) :
    (findTarget? owners text).map mark = (findTarget? owners' text).map mark' := by
  unfold findTarget?
  obtain ⟨hnone, hnone'⟩ | ⟨position, position', hsome, hsome', hsame⟩ :=
    cases_of_optionMap_eq (hposition text)
  · rw [hnone, hnone']
    cases spelledKey? text with
    | none => rfl
    | some key => exact howner key
  · rw [hsome, hsome']
    exact congrArg some hsame

namespace Matching

theorem sourcesAt_congr (h : Matching mark mark') {positions : List (Position planned)}
    {positions' : List (Position planned')} (hp : positions.map mark = positions'.map mark') :
    sourcesAt planned positions = sourcesAt planned' positions' :=
  forall₂_iff_map_eq.1 ((forall₂_iff_map_eq.2 hp).imp (fun _ _ => h.source_eq))

section
variable {find? : String → Option (Position planned)} {find?' : String → Option (Position planned')}
  (h : Matching mark mark') (hfind : ∀ text, (find? text).map mark = (find?' text).map mark')
include h hfind

/-- A chase goes through entries under the same marks. -/
theorem map_chaseFrom_congr {limit : Nat} {start : Position planned} {start' : Position planned'}
    (hstart : mark start = mark' start') :
    ∀ {hops : Nat} {visited : List (Position planned)} {visited' : List (Position planned')}
      {current : Position planned} {current' : Position planned'},
      visited.map mark = visited'.map mark' → mark current = mark' current' →
      (chaseFrom find? limit start hops visited current).map mark =
        (chaseFrom find?' limit start' hops visited' current').map mark'
  | hops, visited, visited', current, current', hvisited, hcurrent => by
    rw [chaseFrom.eq_def, chaseFrom.eq_def]
    dsimp only
    rw [h.target_eq hcurrent]
    cases (planned'.get current').target with
    | method implementation => exact congrArg Except.ok hcurrent
    | aliasOf text =>
      dsimp only
      cases hops with
      | zero =>
        dsimp only
        rw [h.source_eq hstart]
        rfl
      | succ hops =>
        dsimp only
        obtain ⟨hnone, hnone'⟩ | ⟨next, next', hnext, hnext', hsame⟩ :=
          cases_of_optionMap_eq (hfind text)
        · rw [hnone, hnone']
          dsimp only
          rw [h.source_eq hcurrent]
          rfl
        · rw [hnext, hnext']
          dsimp only
          -- both chases meet a cycle at the same hop, and the errors list the same sources
          have hmem : next ∈ visited ↔ next' ∈ visited' := by
            rw [← List.mem_map_of_injective h.injective, hvisited, hsame,
              List.mem_map_of_injective h.injective']
          have hnow : (visited ++ [next]).map mark = (visited' ++ [next']).map mark' := by
            simp [hvisited, hsame]
          by_cases hcycle : next ∈ visited
          · rw [if_pos hcycle, if_pos (hmem.1 hcycle), h.source_eq hstart,
              h.sourcesAt_congr hnow]
            rfl
          · rw [if_neg hcycle, if_neg (fun hcycle' => hcycle (hmem.2 hcycle'))]
            exact map_chaseFrom_congr hstart hnow hsame

theorem map_chase_congr (limit : Nat) {i : Position planned} {i' : Position planned'}
    (hi : mark i = mark' i') :
    (chase find? limit i).map mark = (chase find?' limit i').map mark' :=
  h.map_chaseFrom_congr hfind hi (by simp [hi]) hi

/-- Aliases lead from matching entries to matching entries. -/
theorem follows_congr {i terminal : Position planned} (hfollows : Follows find? i terminal) :
    ∀ {i' : Position planned'}, mark i = mark' i' →
      ∃ terminal', mark terminal = mark' terminal' ∧ Follows find?' i' terminal' := by
  induction hfollows with
  | here hmethod =>
    intro i' hi
    exact ⟨i', hi, .here ((h.target_eq hi).symm.trans hmethod)⟩
  | @hop i next terminal text halias hnext _ ih =>
    intro i' hi
    obtain ⟨next', hnext', hmark⟩ := exists_of_optionMap_eq (hfind text) hnext
    obtain ⟨terminal', hterminal, hfollows'⟩ := ih hmark
    exact ⟨terminal', hterminal, .hop ((h.target_eq hi).symm.trans halias) hnext' hfollows'⟩

end

end Matching

end ShapeDispatch
