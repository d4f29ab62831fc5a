import Mathlib.Data.List.FinRange
import Mathlib.Data.List.Forall2

/-!
Steps that may fail, run one after the other. A run that succeeds says of every step that it
succeeded, and a fact that each successful step keeps holds behind the whole run (`foldlM_ok_inv`). A
run that fails does so with the error of the first step that fails (`mapM_eq_error`,
`foldlM_eq_error`).
-/

namespace ShapeDispatch
variable {ε α β : Type}

theorem bind_eq_ok {x : Except ε α} {f : α → Except ε β} {b : β} :
    x >>= f = .ok b ↔ ∃ a, x = .ok a ∧ f a = .ok b := by
  cases x <;> simp [bind, Except.bind]

theorem mapError_eq_ok {ε' : Type} {x : Except ε α} {f : ε → ε'} {a : α} :
    x.mapError f = .ok a ↔ x = .ok a := by
  cases x <;> simp [Except.mapError]

theorem map_eq_ok {x : Except ε α} {f : α → β} {b : β} :
    x.map f = .ok b ↔ ∃ a, x = .ok a ∧ f a = b := by
  cases x <;> simp [Except.map]

theorem map_eq_error {x : Except ε α} {f : α → β} {e : ε} : x.map f = .error e ↔ x = .error e := by
  cases x <;> simp [Except.map]

theorem bind_eq_error {x : Except ε α} {f : α → Except ε β} {e : ε} :
    x >>= f = .error e ↔ x = .error e ∨ ∃ a, x = .ok a ∧ f a = .error e := by
  cases x <;> simp [bind, Except.bind]

theorem mapError_eq_error {ε' : Type} {x : Except ε α} {f : ε → ε'} {e : ε'} :
    x.mapError f = .error e ↔ ∃ e', x = .error e' ∧ f e' = e := by
  cases x <;> simp [Except.mapError]

theorem toOption_eq_some {x : Except ε α} {a : α} : x.toOption = some a ↔ x = .ok a := by
  cases x <;> simp [Except.toOption]

/-- A step succeeds if something can be computed from its result. -/
theorem exists_ok_of_toOption {γ : Type} {x : Except ε α} {f : α → γ} {c : γ}
    (h : x.toOption.map f = some c) : ∃ a, x = .ok a ∧ f a = c := by
  cases x with
  | error e => cases h
  | ok a => exact ⟨a, rfl, Option.some.inj h⟩

/-- The error of a step that fails. -/
def failure? : Except ε α → Option ε
  | .error e => some e
  | .ok _ => none

theorem failure?_eq_some {x : Except ε α} {e : ε} : failure? x = some e ↔ x = .error e := by
  cases x <;> simp [failure?]

/-- A run over a list gives one result for each element, in order. -/
theorem mapM_eq_ok {f : α → Except ε β} : ∀ {l : List α} {r : List β},
    l.mapM f = .ok r ↔ List.Forall₂ (fun a b => f a = .ok b) l r
  | [], r => by
    rw [List.mapM_nil, List.forall₂_nil_left_iff]
    exact ⟨fun h => (Except.ok.inj h).symm, fun h => h ▸ rfl⟩
  | a :: l, r => by
    rw [List.mapM_cons, bind_eq_ok, List.forall₂_cons_left_iff]
    constructor
    · rintro ⟨b, hb, h⟩
      obtain ⟨bs, hbs, h⟩ := bind_eq_ok.1 h
      exact ⟨b, bs, hb, mapM_eq_ok.1 hbs, (Except.ok.inj h).symm⟩
    · rintro ⟨b, bs, hb, hbs, rfl⟩
      exact ⟨b, hb, bind_eq_ok.2 ⟨bs, mapM_eq_ok.2 hbs, rfl⟩⟩

/-- A run over a list succeeds exactly if every step does. -/
theorem exists_mapM_eq_ok_iff {f : α → Except ε β} : ∀ {l : List α},
    (∃ r, l.mapM f = .ok r) ↔ ∀ a ∈ l, ∃ b, f a = .ok b
  | [] => ⟨fun _ _ ha => absurd ha List.not_mem_nil, fun _ => ⟨[], List.mapM_nil⟩⟩
  | a :: l => by
    rw [List.forall_mem_cons, ← exists_mapM_eq_ok_iff]
    constructor
    · rintro ⟨r, h⟩
      obtain ⟨b, bs, hb, hbs, _⟩ := List.forall₂_cons_left_iff.1 (mapM_eq_ok.1 h)
      exact ⟨⟨b, hb⟩, bs, mapM_eq_ok.2 hbs⟩
    · rintro ⟨⟨b, hb⟩, bs, hbs⟩
      exact ⟨b :: bs, mapM_eq_ok.2 (.cons hb (mapM_eq_ok.1 hbs))⟩

/-- A run over a list fails with the error of the first element whose step fails. -/
theorem mapM_eq_error {f : α → Except ε β} {e : ε} : ∀ {l : List α}, l.mapM f = .error e ↔
    ∃ before a behind, l = before ++ a :: behind ∧ (∀ b ∈ before, ∃ c, f b = .ok c) ∧
      f a = .error e
  | [] => by simp [List.mapM_nil, pure, Except.pure]
  | a :: l => by
    rw [List.mapM_cons, bind_eq_error]
    constructor
    · rintro (ha | ⟨c, hc, hrest⟩)
      · exact ⟨[], a, l, rfl, by simp, ha⟩
      · rcases bind_eq_error.1 hrest with hrest | ⟨_, _, hrest⟩
        · obtain ⟨before, b, behind, rfl, hbefore, hb⟩ := mapM_eq_error.1 hrest
          refine ⟨a :: before, b, behind, rfl, ?_, hb⟩
          rw [List.forall_mem_cons]
          exact ⟨⟨c, hc⟩, hbefore⟩
        · cases hrest
    · rintro ⟨before, b, behind, hsplit, hbefore, hb⟩
      cases before with
      | nil =>
        cases hsplit
        exact .inl hb
      | cons first before =>
        cases hsplit
        obtain ⟨⟨c, hc⟩, hbefore⟩ := List.forall_mem_cons.1 hbefore
        exact .inr ⟨c, hc, bind_eq_error.2 (.inl (mapM_eq_error.2 ⟨_, b, _, rfl, hbefore, hb⟩))⟩

/-- A run over all positions fails with the error of the earliest position whose step fails. -/
theorem mapM_finRange_eq_error {n : Nat} {f : Fin n → Except ε β} {e : ε} :
    (List.finRange n).mapM f = .error e ↔ ∃ i, f i = .error e ∧ ∀ j < i, ∃ b, f j = .ok b := by
  have hsorted : (List.finRange n).Pairwise (· < ·) := List.pairwise_lt_finRange n
  rw [mapM_eq_error]
  constructor
  · rintro ⟨before, i, behind, hsplit, hbefore, hi⟩
    refine ⟨i, hi, fun j hj => hbefore j ?_⟩
    have hmem : j ∈ before ++ i :: behind := hsplit ▸ List.mem_finRange j
    rw [hsplit, List.pairwise_append, List.pairwise_cons] at hsorted
    rcases List.mem_append.1 hmem with hmem | hmem
    · exact hmem
    · rcases List.mem_cons.1 hmem with rfl | hmem
      · exact absurd hj (Nat.lt_irrefl _)
      · exact absurd hj (Nat.lt_asymm (hsorted.2.1.1 j hmem))
  · rintro ⟨i, hi, hbefore⟩
    obtain ⟨before, behind, hsplit⟩ := List.append_of_mem (List.mem_finRange i)
    rw [hsplit] at hsorted
    refine ⟨before, i, behind, hsplit, fun j hj => hbefore j ?_, hi⟩
    exact (List.pairwise_append.1 hsorted).2.2 j hj i (List.mem_cons_self ..)

/-- What holds of the elements taken so far and the state behind them holds of all elements and the
last state. -/
theorem foldlM_ok_inv (Inv : List α → β → Prop) {f : β → α → Except ε β} :
    ∀ {l : List α} (done : List α) {b b' : β}, Inv done b →
      (∀ seen a rest s s', done ++ l = seen ++ a :: rest → Inv seen s → f s a = .ok s' →
        Inv (seen ++ [a]) s') →
      l.foldlM f b = .ok b' → Inv (done ++ l) b'
  | [], done, b, b', h0, _, h => by
    cases h
    simpa using h0
  | a :: l, done, b, b', h0, hstep, h => by
    rw [List.foldlM_cons] at h
    obtain ⟨s, hs, h⟩ := bind_eq_ok.1 h
    have h1 : Inv (done ++ [a]) s := hstep done a l b s rfl h0 hs
    rw [List.append_cons] at hstep
    simpa using foldlM_ok_inv Inv (done ++ [a]) h1 hstep h

theorem foldlM_concat (f : β → α → Except ε β) (l : List α) (a : α) (b : β) :
    (l ++ [a]).foldlM f b = l.foldlM f b >>= fun s => f s a := by
  simp [List.foldlM_append]

/-- A run that succeeds has taken a step on every element. -/
theorem exists_step_of_foldlM {f : β → α → Except ε β} {l : List α} {b b' : β}
    (h : l.foldlM f b = .ok b') : ∀ a ∈ l, ∃ s s', f s a = .ok s' := by
  refine foldlM_ok_inv (fun seen _ => ∀ a ∈ seen, ∃ s s', f s a = .ok s') [] (by simp) ?_ h
  intro seen a rest s s' _ hseen hstep a' ha'
  rcases List.mem_append.1 ha' with ha' | ha'
  · exact hseen a' ha'
  · rw [List.mem_singleton] at ha'
    exact ⟨s, s', ha' ▸ hstep⟩

/-- A run fails with the error of the first step that fails, behind steps that succeed. -/
theorem foldlM_eq_error {f : β → α → Except ε β} {e : ε} : ∀ {l : List α} {b : β},
    l.foldlM f b = .error e ↔ ∃ before a behind s, l = before ++ a :: behind ∧
      before.foldlM f b = .ok s ∧ f s a = .error e
  | [], b => by simp [List.foldlM_nil, pure, Except.pure]
  | a :: l, b => by
    rw [List.foldlM_cons, bind_eq_error]
    constructor
    · rintro (h | ⟨s, hs, h⟩)
      · exact ⟨[], a, l, b, rfl, rfl, h⟩
      · obtain ⟨before, a', behind, s', rfl, hbefore, h⟩ := foldlM_eq_error.1 h
        refine ⟨a :: before, a', behind, s', rfl, ?_, h⟩
        rw [List.foldlM_cons]
        exact bind_eq_ok.2 ⟨s, hs, hbefore⟩
    · rintro ⟨before, a', behind, s', hsplit, hbefore, h⟩
      cases before with
      | nil =>
        cases hsplit
        cases hbefore
        exact .inl h
      | cons first before =>
        cases hsplit
        obtain ⟨s, hs, hbefore⟩ := bind_eq_ok.1 hbefore
        exact .inr ⟨s, hs, foldlM_eq_error.2 ⟨before, a', behind, s', rfl, hbefore, h⟩⟩

/-- A run fails where one of its steps does, in a state that has what the steps before it keep. -/
theorem exists_step_of_foldlM_error (Inv : β → Prop) {f : β → α → Except ε β} {e : ε} {l : List α}
    {b : β} (h0 : Inv b) (hstep : ∀ a ∈ l, ∀ s s', Inv s → f s a = .ok s' → Inv s')
    (h : l.foldlM f b = .error e) : ∃ a ∈ l, ∃ s, Inv s ∧ f s a = .error e := by
  obtain ⟨before, a, behind, s, rfl, hbefore, hfails⟩ := foldlM_eq_error.1 h
  refine ⟨a, by simp, s, ?_, hfails⟩
  refine foldlM_ok_inv (fun _ s => Inv s) [] h0 ?_ hbefore
  intro seen a' rest s s' hsplit hs hok
  rw [List.nil_append] at hsplit
  exact hstep a' (by simp [hsplit]) s s' hs hok

/-! Two runs have the same outcome, as far as `f` and `f'` can tell their results, if they fail with
the same error or succeed with results of the same image. -/

section
variable {α' β' γ δ : Type} {f : α → γ} {f' : α' → γ} {h : β → δ} {h' : β' → δ}

theorem cases_of_map_eq {x : Except ε α} {x' : Except ε α'} (hx : x.map f = x'.map f') :
    (∃ e, x = .error e ∧ x' = .error e) ∨ ∃ a a', x = .ok a ∧ x' = .ok a' ∧ f a = f' a' := by
  cases x with
  | error e =>
    cases x' with
    | error e' =>
      cases hx
      exact .inl ⟨e, rfl, rfl⟩
    | ok a' => cases hx
  | ok a =>
    cases x' with
    | error e' => cases hx
    | ok a' => exact .inr ⟨a, a', rfl, rfl, Except.ok.inj hx⟩

theorem map_bind_congr {x : Except ε α} {x' : Except ε α'} {g : α → Except ε β}
    {g' : α' → Except ε β'} (hx : x.map f = x'.map f')
    (hg : ∀ a a', f a = f' a' → (g a).map h = (g' a').map h') :
    (x >>= g).map h = (x' >>= g').map h' := by
  obtain ⟨e, rfl, rfl⟩ | ⟨a, a', rfl, rfl, ha⟩ := cases_of_map_eq hx
  · rfl
  · exact hg a a' ha

theorem map_mapError_congr {ε' : Type} {x : Except ε α} {x' : Except ε α'} (g : ε → ε')
    (hx : x.map f = x'.map f') : (x.mapError g).map f = (x'.mapError g).map f' := by
  obtain ⟨e, rfl, rfl⟩ | ⟨a, a', rfl, rfl, ha⟩ := cases_of_map_eq hx
  · rfl
  · exact congrArg Except.ok ha

theorem map_foldlM_congr {R : β → β' → Prop} {step : α → β → Except ε α}
    {step' : α' → β' → Except ε α'}
    (hstep : ∀ {s s' b b'}, R b b' → f s = f' s' → (step s b).map f = (step' s' b').map f')
    {l : List β} {l' : List β'} (hl : List.Forall₂ R l l') {s : α} {s' : α'} (hs : f s = f' s') :
    (l.foldlM step s).map f = (l'.foldlM step' s').map f' := by
  induction hl generalizing s s' with
  | nil => exact congrArg Except.ok hs
  | cons hb _ ih =>
    rw [List.foldlM_cons, List.foldlM_cons]
    exact map_bind_congr (hstep hb hs) (fun _ _ => ih)

/-- Two runs over one list. -/
theorem map_foldlM_congr_left {step : α → β → Except ε α} {step' : α' → β → Except ε α'}
    (hstep : ∀ s s' b, f s = f' s' → (step s b).map f = (step' s' b).map f') (l : List β) {s : α}
    {s' : α'} (hs : f s = f' s') : (l.foldlM step s).map f = (l.foldlM step' s').map f' := by
  have hsame : List.Forall₂ Eq l l := List.forall₂_refl l
  refine map_foldlM_congr ?_ hsame hs
  rintro s s' b _ rfl
  exact hstep s s' b

theorem map_mapM_congr {g : β → Except ε α} {g' : β' → Except ε α'} {l : List β} {l' : List β'}
    (hl : List.Forall₂ (fun b b' => (g b).map f = (g' b').map f') l l') :
    (l.mapM g).map (List.map f) = (l'.mapM g').map (List.map f') := by
  induction hl with
  | nil => rfl
  | cons hb _ ih =>
    rw [List.mapM_cons, List.mapM_cons]
    refine map_bind_congr hb (fun a a' ha => map_bind_congr ih (fun as as' has => ?_))
    exact congrArg Except.ok (by rw [List.map_cons, List.map_cons, ha, has])

end

theorem forall₂_iff_map_eq {α α' γ : Type} {f : α → γ} {f' : α' → γ} {l : List α} {l' : List α'} :
    List.Forall₂ (fun a a' => f a = f' a') l l' ↔ l.map f = l'.map f' := by
  rw [← List.forall₂_eq_eq_eq, List.forall₂_map_left_iff, List.forall₂_map_right_iff]

/-- Each element on the right stands opposite one on the left. -/
theorem exists_mem_of_forall₂ {α β : Type} {R : α → β → Prop} {l : List α} {l' : List β}
    (h : List.Forall₂ R l l') {b : β} (hb : b ∈ l') : ∃ a ∈ l, R a b := by
  induction h with
  | nil => cases hb
  | @cons a first l l' hfirst _ ih =>
    rcases List.mem_cons.1 hb with rfl | hb
    · exact ⟨a, List.mem_cons_self .., hfirst⟩
    · obtain ⟨a', ha', hR⟩ := ih hb
      exact ⟨a', List.mem_cons_of_mem a ha', hR⟩

theorem cases_of_optionMap_eq {α α' γ : Type} {f : α → γ} {f' : α' → γ} {x : Option α}
    {x' : Option α'} (hx : x.map f = x'.map f') :
    x = none ∧ x' = none ∨ ∃ a a', x = some a ∧ x' = some a' ∧ f a = f' a' := by
  cases x <;> cases x' <;> simp_all

theorem exists_of_optionMap_eq {α α' γ : Type} {f : α → γ} {f' : α' → γ} {x : Option α}
    {x' : Option α'} (hx : x.map f = x'.map f') {a : α} (ha : x = some a) :
    ∃ a', x' = some a' ∧ f a = f' a' := by
  obtain ⟨hnone, _⟩ | ⟨b, a', hb, ha', hsame⟩ := cases_of_optionMap_eq hx
  · rw [hnone] at ha
    cases ha
  · rw [hb] at ha
    cases ha
    exact ⟨a', ha', hsame⟩

end ShapeDispatch
