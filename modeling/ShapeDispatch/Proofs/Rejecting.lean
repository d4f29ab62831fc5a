import ShapeDispatch.Proofs.Locating
import ShapeDispatch.Proofs.Viability

/-!
What the reader finds wrong. `Rejects` lists what can be wrong with a token that it does not take and
`Refuses` what can be wrong at the end of the tokens, each with what the grammar says of it. A reading
that fails does so in one of these ways, or because there is no token (`ofLexemes_eq_error`).
-/

namespace ShapeDispatch.Signature

/-- What can be wrong where a side of `>` ends behind some groups. -/
inductive RejectsSide (left : Option (List WrittenGroup)) (groups : List WrittenGroup) :
    Fault → Prop where
  | misplaced {w : WrittenGroup} : left = none → misplaced? groups = some w →
      RejectsSide left groups ⟨w.span, .mandatoryAfterOptional⟩
  | projection {w : WrittenGroup} : w ∈ groups → RejectsSide left groups ⟨w.span, .invalidProjection⟩

/-- What can be wrong with a token. -/
inductive Rejects (source : List Char) (p : Progress) (l : Lexeme) : Fault → Prop where
  | unexpected {expected : Expectation} : p.stance.next? l.kind = none →
      Rejects source p l ⟨l.span, .unexpected l.text expected⟩
  | duplicate : Rejects source p l ⟨l.span, .duplicateAlternative l.text⟩
  | boundAlternation {start : Nat} {params : List Parameter} {slot : Slot} {first : Lexeme}
      {span : Span} : p.place = .inside start params slot → slot.first? = some first →
      span = ⟨first.span.start, l.span.stop⟩ →
        Rejects source p l ⟨span, .boundAlternation (span.slice source)⟩
  | side {last : WrittenGroup} {fault : Fault} : p.place = .closed last →
      (l.kind = .question → last.group.optional = true) →
        RejectsSide p.left (p.groups ++ [last]) fault → Rejects source p l fault

/-- What can be wrong at the end of the tokens. -/
inductive Refuses (source : List Char) (p : Progress) : Fault → Prop where
  | unfinished {expected : Expectation} : (∀ optional, p.stance.spot ≠ .closed optional) →
      Refuses source p ⟨⟨byteLength source, byteLength source⟩, .unexpectedEnd expected⟩
  | side {last : WrittenGroup} {fault : Fault} : p.place = .closed last →
      RejectsSide p.left (p.groups ++ [last]) fault → Refuses source p fault
  | mixed : Refuses source p ⟨⟨0, byteLength source⟩, .mixedBindings⟩

section
variable {source : List Char} {p : Progress} {l : Lexeme} {fault : Fault}
  {left : Option (List WrittenGroup)} {groups : List WrittenGroup}

theorem rejectsSide_of_checkOrder (h : checkOrder groups = .error fault) (hleft : left = none) :
    RejectsSide left groups fault := by
  unfold checkOrder at h
  split at h
  · next w hw =>
    cases h
    exact .misplaced hleft hw
  · cases h

theorem exists_of_projectedNames : ∀ {groups : List WrittenGroup},
    projectedNames groups = .error fault → ∃ w ∈ groups, fault = ⟨w.span, .invalidProjection⟩
  | [], h => by cases h
  | w :: groups, h => by
    rw [projectedNames] at h
    split at h
    · obtain ⟨v, hv, hfault⟩ := exists_of_projectedNames (map_eq_error.1 h)
      exact ⟨v, List.mem_cons_of_mem w hv, hfault⟩
    · cases h
      exact ⟨w, List.mem_cons_self .., rfl⟩

theorem rejectsSide_of_projectedNames (h : projectedNames groups = .error fault) :
    RejectsSide left groups fault := by
  obtain ⟨w, hw, rfl⟩ := exists_of_projectedNames h
  exact .projection hw

theorem rejectsSide_of_checkSide (h : checkSide left groups = .error fault) :
    RejectsSide left groups fault := by
  unfold checkSide at h
  split at h
  · exact rejectsSide_of_checkOrder h rfl
  · exact rejectsSide_of_projectedNames (map_eq_error.1 h)

theorem rejects_of_stepInside {start : Nat} {params : List Parameter} {slot : Slot}
    (hplace : p.place = .inside start params slot)
    (h : stepInside source start params slot l = .error fault) : Rejects source p l fault := by
  cases hnext : slot.spot.next? l.kind with
  | some spot =>
    rcases stepsInside_of_next? start params hnext with ⟨place, hsteps⟩ | ⟨first, chosen, rfl, hkind, hmem⟩
    · rw [stepInside_eq_ok_iff.2 hsteps] at h
      cases h
    · simp only [stepInside, Slot.parameter?, hkind, if_pos hmem] at h
      cases h
      exact .duplicate
  | none =>
    have hstance : p.stance.next? l.kind = none := by
      rw [Progress.stance, hplace]
      exact Stance.next?_eq_none hnext (.inr (.inr slot.spot_ne_closed))
    unfold stepInside at h
    split at h
    -- only the ways in which a token is not taken are left
    all_goals try cases h
    · split at h <;> cases h
      exact .duplicate
    · exact .boundAlternation hplace rfl rfl
    · exact .boundAlternation hplace rfl rfl
    · exact .unexpected hstance

theorem rejects_of_step (h : p.step source l = .error fault) : Rejects source p l fault := by
  unfold Progress.step at h
  split at h
  · next hplace =>
    split at h
    · cases h
    · next hkind =>
      cases h
      refine .unexpected ?_
      rw [Progress.stance, hplace]
      refine Stance.next?_eq_none ?_ (.inr (.inr (by simp [Place.spot])))
      cases hl : l.kind <;> first | rfl | exact absurd hl hkind
  · next hplace => exact rejects_of_stepInside hplace (map_eq_error.1 h)
  · next last hplace =>
    split at h
    · cases h
    · cases h
    · next hopening hquestion =>
      have hmark : l.kind = .question → last.group.optional = true := by
        intro hkind
        cases hopt : last.group.optional with
        | true => rfl
        | false => exact absurd hopt (hquestion hkind)
      rcases bind_eq_error.1 h with h | ⟨⟨⟩, _, h⟩
      · exact .side hplace hmark (rejectsSide_of_checkSide h)
      · split at h
        · cases h
        · next hprojection =>
          cases h
          refine .unexpected ?_
          rw [Progress.stance, hplace]
          refine Stance.next?_eq_none (Spot.next?_closed hopening hmark) ?_
          cases hleft : p.left with
          | none => exact .inr (.inl fun hkind => hprojection hkind hleft)
          | some left => exact .inl rfl

theorem refuses_of_finish (h : p.finish source = .error fault) : Refuses source p fault := by
  unfold Progress.finish at h
  split at h
  · next hplace =>
    cases h
    exact .unfinished (by simp [Progress.stance, hplace, Place.spot])
  · next slot hplace =>
    cases h
    refine .unfinished ?_
    rw [Progress.stance, hplace]
    exact slot.spot_ne_closed
  · next last hplace =>
    dsimp only at h
    split at h
    · next left hleft =>
      rcases bind_eq_error.1 h with h | ⟨names, _, h⟩
      · exact .side hplace (rejectsSide_of_projectedNames h)
      · cases h
    · next hleft =>
      rcases bind_eq_error.1 h with h | ⟨⟨⟩, _, h⟩
      · exact .side hplace (rejectsSide_of_checkOrder h hleft)
      · split at h
        · cases h
        · cases h
          exact .mixed

/-- A reading that fails does so at once, at a token that is not taken, or at the end. -/
theorem ofLexemes_eq_error {lexemes : List Lexeme} (h : ofLexemes source lexemes = .error fault) :
    fault = ⟨⟨0, 0⟩, .empty⟩ ∨
    (∃ before l behind p, lexemes = before ++ l :: behind ∧
      before.foldlM (Progress.step source) Progress.start = .ok p ∧ Rejects source p l fault) ∨
    ∃ p, lexemes.foldlM (Progress.step source) Progress.start = .ok p ∧ Refuses source p fault := by
  unfold ofLexemes at h
  split at h
  · cases h
    exact .inl rfl
  · rcases bind_eq_error.1 h with h | ⟨p, hp, h⟩
    · obtain ⟨before, l, behind, p, hsplit, hp, h⟩ := foldlM_eq_error.1 h
      exact .inr (.inl ⟨before, l, behind, p, hsplit, hp, rejects_of_step h⟩)
    · exact .inr (.inr ⟨p, hp, refuses_of_finish h⟩)

end

end ShapeDispatch.Signature
