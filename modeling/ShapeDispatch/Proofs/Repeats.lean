import Mathlib.Data.List.Induction

/-!
Lists up to repetitions. Two lists are the same up to repetitions if they keep the same elements, in
the order of their first occurrence; joining such lists and mapping over them does not tell them
apart (`eraseDups_append_congr`, `eraseDups_flatMap_congr`).
-/

namespace ShapeDispatch
variable {α γ : Type} [BEq α] [LawfulBEq α] [BEq γ] [LawfulBEq γ]

theorem eraseDups_concat (l : List α) (a : α) :
    (l ++ [a]).eraseDups = if a ∈ l then l.eraseDups else l.eraseDups ++ [a] := by
  rw [List.eraseDups_append]
  by_cases h : a ∈ l <;> simp [List.removeAll, h, List.eraseDups_cons]

omit [LawfulBEq α] in
theorem eraseDups_sublist : ∀ l : List α, l.eraseDups.Sublist l
  | [] => by simp
  | a :: l => by
    rw [List.eraseDups_cons]
    exact ((eraseDups_sublist _).trans List.filter_sublist).cons_cons a
termination_by l => l.length
decreasing_by exact Nat.lt_succ_of_le (List.length_filter_le _ _)

theorem nodup_eraseDups (l : List α) : l.eraseDups.Nodup := by
  induction l using List.reverseRecOn with
  | nil => exact List.nodup_nil
  | append_singleton l a ih =>
    rw [eraseDups_concat]
    split
    · exact ih
    · next ha =>
      refine List.nodup_append.2 ⟨ih, by simp, ?_⟩
      rintro b hb _ hsame rfl
      rw [List.mem_singleton.1 hsame, List.mem_eraseDups] at hb
      exact ha hb

theorem eraseDups_of_nodup {l : List α} (h : l.Nodup) : l.eraseDups = l := by
  induction l using List.reverseRecOn with
  | nil => rfl
  | append_singleton l a ih =>
    obtain ⟨hl, _, hne⟩ := List.nodup_append.1 h
    have ha : a ∉ l := fun hmem => hne a hmem a (List.mem_singleton_self a) rfl
    rw [eraseDups_concat, if_neg ha, ih hl]

theorem eraseDups_filter (p : α → Bool) (l : List α) :
    (l.filter p).eraseDups = l.eraseDups.filter p := by
  induction l using List.reverseRecOn with
  | nil => rfl
  | append_singleton l a ih =>
    rw [List.filter_append, eraseDups_concat]
    by_cases hp : p a
    · by_cases ha : a ∈ l
      · simp [hp, ha, eraseDups_concat, ih]
      · simp [hp, ha, eraseDups_concat, ih]
    · by_cases ha : a ∈ l
      · simp [hp, ha, ih]
      · simp [hp, ha, ih]

theorem eraseDups_append_congr {l l' m m' : List α} (hl : l.eraseDups = l'.eraseDups)
    (hm : m.eraseDups = m'.eraseDups) : (l ++ m).eraseDups = (l' ++ m').eraseDups := by
  have hmem : ∀ a, a ∈ l ↔ a ∈ l' := by
    intro a
    rw [← List.mem_eraseDups, hl, List.mem_eraseDups]
  rw [List.eraseDups_append, List.eraseDups_append, List.removeAll, List.removeAll,
    eraseDups_filter, eraseDups_filter, hl, hm]
  simp [hmem]

/-- What already occurs adds nothing. -/
theorem eraseDups_append_of_subset {l m : List α} (h : ∀ a ∈ m, a ∈ l) :
    (l ++ m).eraseDups = l.eraseDups := by
  have hnone : m.removeAll l = [] := by simpa [List.removeAll] using h
  rw [List.eraseDups_append, hnone, List.eraseDups_nil, List.append_nil]

omit [BEq α] [LawfulBEq α] in
theorem eraseDups_flatMap_congr_right {f g : α → List γ} {l : List α}
    (h : ∀ a ∈ l, (f a).eraseDups = (g a).eraseDups) :
    (l.flatMap f).eraseDups = (l.flatMap g).eraseDups := by
  induction l with
  | nil => rfl
  | cons a l ih =>
    rw [List.flatMap_cons, List.flatMap_cons]
    exact eraseDups_append_congr (h a (List.mem_cons_self ..))
      (ih (fun b hb => h b (List.mem_cons_of_mem a hb)))

theorem eraseDups_flatMap_eraseDups (f : α → List γ) (l : List α) :
    (l.eraseDups.flatMap f).eraseDups = (l.flatMap f).eraseDups := by
  induction l using List.reverseRecOn with
  | nil => rfl
  | append_singleton l a ih =>
    rw [eraseDups_concat, List.flatMap_append, List.flatMap_singleton]
    split
    · next ha =>
      rw [ih, eraseDups_append_of_subset]
      intro b hb
      exact List.mem_flatMap.2 ⟨a, ha, hb⟩
    · rw [List.flatMap_append, List.flatMap_singleton]
      exact eraseDups_append_congr ih rfl

theorem eraseDups_map_eraseDups (f : α → γ) (l : List α) :
    (l.eraseDups.map f).eraseDups = (l.map f).eraseDups := by
  rw [List.map_eq_flatMap, List.map_eq_flatMap, eraseDups_flatMap_eraseDups]

omit [BEq γ] [LawfulBEq γ] in
theorem eraseDups_eraseDups (l : List α) : l.eraseDups.eraseDups = l.eraseDups := by
  simpa using eraseDups_map_eraseDups id l

theorem eraseDups_map_congr {f : α → γ} {l l' : List α} (h : l.eraseDups = l'.eraseDups) :
    (l.map f).eraseDups = (l'.map f).eraseDups := by
  rw [← eraseDups_map_eraseDups, h, eraseDups_map_eraseDups]

end ShapeDispatch
