import ShapeDispatch.Proofs.Outcome
import ShapeDispatch.Signature.Reader

/-!
Where a token may lead. `StepsInside` and `Steps` list what the reader does with a token that it takes,
one constructor for each way; all other tokens are faults (`stepInside_eq_ok_iff`,
`Progress.step_eq_ok_iff`).
-/

namespace ShapeDispatch.Signature

/-- Where a token may lead inside a group. -/
inductive StepsInside (start : Nat) (params : List Parameter) : Slot → Lexeme → Place → Prop where
  | comma {slot : Slot} {p : Parameter} {l : Lexeme} : slot.parameter? = some p →
      l.kind = .comma → StepsInside start params slot l (.inside start (params ++ [p]) .separated)
  | close {slot : Slot} {p : Parameter} {l : Lexeme} : slot.parameter? = some p →
      l.kind = .closeBracket →
        StepsInside start params slot l (.closed ⟨⟨params ++ [p], false⟩, ⟨start, l.span.stop⟩⟩)
  | closeEmpty {l : Lexeme} : l.kind = .closeBracket →
      StepsInside start params .opened l (.closed ⟨⟨params, false⟩, ⟨start, l.span.stop⟩⟩)
  | begin {slot : Slot} {l : Lexeme} : slot = .opened ∨ slot = .separated → l.kind = .name →
      StepsInside start params slot l (.inside start params (.typed l))
  | bar {first l : Lexeme} : l.kind = .pipe →
      StepsInside start params (.typed first) l (.inside start params (.piped first [first.text]))
  | colon {first l : Lexeme} : l.kind = .colon →
      StepsInside start params (.typed first) l (.inside start params (.coloned first))
  | alternative {first l : Lexeme} {chosen : List String} : l.kind = .name → l.text ∉ chosen →
      StepsInside start params (.piped first chosen) l
        (.inside start params (.alternated first (chosen ++ [l.text])))
  | anotherBar {first l : Lexeme} {chosen : List String} : l.kind = .pipe →
      StepsInside start params (.alternated first chosen) l
        (.inside start params (.piped first chosen))
  | name {first l : Lexeme} : l.kind = .name →
      StepsInside start params (.coloned first) l (.inside start params (.bound first l.text))

theorem stepInside_eq_ok_iff {source : List Char} {start : Nat} {params : List Parameter}
    {slot : Slot} {l : Lexeme} {place : Place} :
    stepInside source start params slot l = .ok place ↔ StepsInside start params slot l place := by
  constructor
  · intro h
    unfold stepInside at h
    split at h
    · next p hkind hp =>
      cases h
      exact .comma hp hkind
    · next p hkind hp =>
      cases h
      exact .close hp hkind
    · next hkind _ =>
      cases h
      exact .closeEmpty hkind
    · next hkind =>
      cases h
      exact .begin (Or.inl rfl) hkind
    · next hkind =>
      cases h
      exact .begin (Or.inr rfl) hkind
    · next hkind =>
      cases h
      exact .bar hkind
    · next hkind =>
      cases h
      exact .colon hkind
    · next hkind =>
      split at h
      · cases h
      · next hnew =>
        cases h
        exact .alternative hkind hnew
    · next hkind =>
      cases h
      exact .anotherBar hkind
    · cases h
    · next hkind =>
      cases h
      exact .name hkind
    · cases h
    · cases h
  · intro h
    cases h with
    | comma hp hkind => simp only [stepInside, hp, hkind]
    | close hp hkind => simp only [stepInside, hp, hkind]
    | closeEmpty hkind => simp only [stepInside, Slot.parameter?, hkind]
    | begin hslot hkind =>
      rcases hslot with rfl | rfl
      · simp only [stepInside, Slot.parameter?, hkind]
      · simp only [stepInside, Slot.parameter?, hkind]
    | bar hkind => simp only [stepInside, Slot.parameter?, hkind]
    | colon hkind => simp only [stepInside, Slot.parameter?, hkind]
    | alternative hkind hnew => simp only [stepInside, Slot.parameter?, hkind, if_neg hnew]
    | anotherBar hkind => simp only [stepInside, Slot.parameter?, hkind]
    | name hkind => simp only [stepInside, Slot.parameter?, hkind]

theorem checkOrder_eq_ok_iff {groups : List WrittenGroup} :
    checkOrder groups = .ok () ↔ misplaced? groups = none := by
  unfold checkOrder
  split <;> simp_all

/-- Where a token may lead. -/
inductive Steps : Progress → Lexeme → Progress → Prop where
  | first {left : Option (List WrittenGroup)} {groups : List WrittenGroup} {l : Lexeme} :
    l.kind = .openBracket →
      Steps ⟨left, groups, .fresh⟩ l ⟨left, groups, .inside l.span.start [] .opened⟩
  | inside {left : Option (List WrittenGroup)} {groups : List WrittenGroup} {l : Lexeme}
      {start : Nat} {params : List Parameter} {slot : Slot} {place : Place} :
    StepsInside start params slot l place →
      Steps ⟨left, groups, .inside start params slot⟩ l ⟨left, groups, place⟩
  | question {left : Option (List WrittenGroup)} {groups : List WrittenGroup} {l : Lexeme}
      {params : List Parameter} {span : Span} : l.kind = .question →
      Steps ⟨left, groups, .closed ⟨⟨params, false⟩, span⟩⟩ l
        ⟨left, groups, .closed ⟨⟨params, true⟩, ⟨span.start, l.span.stop⟩⟩⟩
  | another {left : Option (List WrittenGroup)} {groups : List WrittenGroup} {l : Lexeme}
      {last : WrittenGroup} : l.kind = .openBracket →
      Steps ⟨left, groups, .closed last⟩ l
        ⟨left, groups ++ [last], .inside l.span.start [] .opened⟩
  | projection {groups : List WrittenGroup} {l : Lexeme} {last : WrittenGroup} :
    l.kind = .projection → misplaced? (groups ++ [last]) = none →
      Steps ⟨none, groups, .closed last⟩ l ⟨some (groups ++ [last]), [], .fresh⟩

theorem Progress.step_eq_ok_iff {source : List Char} {p p' : Progress} {l : Lexeme} :
    p.step source l = .ok p' ↔ Steps p l p' := by
  constructor
  · intro h
    obtain ⟨left, groups, place⟩ := p
    unfold Progress.step at h
    split at h
    · next hplace =>
      cases hplace
      split at h
      · next hkind =>
        cases h
        exact .first hkind
      · cases h
    · next start params slot hplace =>
      cases hplace
      cases hstep : stepInside source start params slot l with
      | error e =>
        rw [hstep] at h
        cases h
      | ok place =>
        rw [hstep] at h
        cases h
        exact .inside (stepInside_eq_ok_iff.1 hstep)
    · next last hplace =>
      cases hplace
      split at h
      · next hkind hopt =>
        cases h
        obtain ⟨⟨params, optional⟩, span⟩ := last
        cases hopt
        exact .question hkind
      · next _ hkind =>
        cases h
        exact .another hkind
      · obtain ⟨⟨⟩, hside, h⟩ := bind_eq_ok.1 h
        split at h
        · next hkind hleft =>
          cases h
          cases hleft
          exact .projection hkind (checkOrder_eq_ok_iff.1 hside)
        · cases h
  · intro h
    cases h with
    | first hkind => simp only [step, hkind, if_pos]
    | inside hstep =>
      simp only [step, stepInside_eq_ok_iff.2 hstep]
      rfl
    | question hkind => simp only [step, hkind]
    | another hkind => simp only [step, hkind]
    | projection hkind horder =>
      simp only [step, hkind, checkSide, checkOrder_eq_ok_iff.2 horder]
      rfl

end ShapeDispatch.Signature
