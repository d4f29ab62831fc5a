import Mathlib.Data.List.Nodup
import ShapeDispatch.Proofs.Grammar
import ShapeDispatch.Proofs.Stepping

/-!
Whatever is read is spelled by its tokens and meets the conditions (`spelledBy_of_read`). The proof is
an invariant of the reader's fold: the tokens taken so far spell the pieces that the reader holds
(`Progress.Behind`, `Progress.Behind.step`).
-/

namespace ShapeDispatch.Signature

/-! ### Where the reader stands -/

/-- The tokens of the current position that have been taken. -/
inductive Slot.Behind : List Lexeme → Slot → Prop where
  | opened : Behind [] .opened
  | separated : Behind [] .separated
  | typed {first : Lexeme} : first.kind = .name → Behind [first] (.typed first)
  | piped {lexemes : List Lexeme} {chosen : List String} {first bar : Lexeme} :
    SpellsChoices lexemes chosen → chosen.Nodup → bar.kind = .pipe →
      Behind (lexemes ++ [bar]) (.piped first chosen)
  | alternated {lexemes : List Lexeme} {chosen : List String} {first bar last : Lexeme} :
    SpellsChoices lexemes chosen → (chosen ++ [last.text]).Nodup → bar.kind = .pipe →
      last.kind = .name → Behind (lexemes ++ [bar, last]) (.alternated first (chosen ++ [last.text]))
  | coloned {first colon : Lexeme} : first.kind = .name → colon.kind = .colon →
      Behind [first, colon] (.coloned first)
  | bound {first colon name : Lexeme} : first.kind = .name → colon.kind = .colon →
      name.kind = .name → Behind [first, colon, name] (.bound first name.text)

/-- Whole positions with a comma behind each. -/
inductive FinishedParameters : List Lexeme → List Parameter → Prop where
  | none : FinishedParameters [] []
  | some {lexemes : List Lexeme} {params : List Parameter} {comma : Lexeme} :
    SpellsParameters lexemes params → comma.kind = .comma →
      FinishedParameters (lexemes ++ [comma]) params

/-- The tokens of the current group that have been taken. -/
inductive Place.Behind : List Lexeme → Place → Prop where
  | fresh : Behind [] .fresh
  | inside {opening : Lexeme} {lexemes here : List Lexeme} {params : List Parameter} {start : Nat}
      {slot : Slot} :
    opening.kind = .openBracket → FinishedParameters lexemes params → DistinctChoices params →
      (slot = .opened → lexemes = [] ∧ params = []) → slot.Behind here →
        Behind (opening :: lexemes ++ here) (.inside start params slot)
  | closed {lexemes : List Lexeme} {w : WrittenGroup} : SpellsGroup lexemes w.group →
      DistinctChoices w.group.params → Behind lexemes (.closed w)

/-- No alternative of the groups is listed twice. -/
def DistinctGroups (groups : List WrittenGroup) : Prop :=
  ∀ w ∈ groups, DistinctChoices w.group.params

/-- The tokens up to and with `>`, where the left side has been tested. -/
inductive LeftBehind : List Lexeme → Option (List WrittenGroup) → Prop where
  | none : LeftBehind [] none
  | some {lexemes : List Lexeme} {left : List WrittenGroup} {arrow : Lexeme} :
    SpellsGroups lexemes (left.map WrittenGroup.group) → DistinctGroups left →
      misplaced? left = none → arrow.kind = .projection →
        LeftBehind (lexemes ++ [arrow]) (some left)

/-- All tokens that have been taken: those up to `>`, the finished groups behind it and the rest. -/
def Progress.Behind (taken : List Lexeme) (p : Progress) : Prop :=
  ∃ before done here, taken = before ++ done ++ here ∧ LeftBehind before p.left ∧
    Optionally SpellsGroups done (p.groups.map WrittenGroup.group) ∧ DistinctGroups p.groups ∧
      p.place.Behind here

theorem DistinctChoices.nil : DistinctChoices [] := by
  intro p hp
  cases hp

theorem DistinctChoices.concat {params : List Parameter} {p : Parameter}
    (h : DistinctChoices params) (hp : p.type.choices.Nodup) : DistinctChoices (params ++ [p]) := by
  intro q hq
  rcases List.mem_append.1 hq with hq | hq
  · exact h q hq
  · rw [List.mem_singleton.1 hq]
    exact hp

theorem DistinctGroups.nil : DistinctGroups [] := by
  intro w hw
  cases hw

theorem DistinctGroups.concat {groups : List WrittenGroup} {w : WrittenGroup}
    (h : DistinctGroups groups) (hw : DistinctChoices w.group.params) :
    DistinctGroups (groups ++ [w]) := by
  intro v hv
  rcases List.mem_append.1 hv with hv | hv
  · exact h v hv
  · rw [List.mem_singleton.1 hv]
    exact hw

theorem FinishedParameters.concat {lexemes last : List Lexeme} {params : List Parameter}
    {p : Parameter} (h : FinishedParameters lexemes params) (hp : SpellsParameter last p) :
    SpellsParameters (lexemes ++ last) (params ++ [p]) := by
  cases h with
  | none => exact .one hp
  | some hparams hcomma =>
    rw [List.append_assoc, List.singleton_append]
    exact .more hparams hcomma hp

theorem Optionally.concat {lexemes last : List Lexeme} {groups : List Group} {g : Group}
    (h : Optionally SpellsGroups lexemes groups) (hg : SpellsGroup last g) :
    SpellsGroups (lexemes ++ last) (groups ++ [g]) := by
  cases h with
  | absent => exact .one hg
  | present hgroups => exact .more hgroups hg

/-! ### One token -/

/-- A complete position is spelled by its tokens. -/
theorem Slot.Behind.spells {here : List Lexeme} {slot : Slot} {p : Parameter}
    (h : slot.Behind here) (hp : slot.parameter? = some p) :
    SpellsParameter here p ∧ p.type.choices.Nodup := by
  cases h with
  | opened => cases hp
  | separated => cases hp
  | typed hfirst =>
    cases hp
    exact ⟨.plain hfirst, List.nodup_singleton _⟩
  | piped => cases hp
  | alternated hchoices hnodup hbar hlast =>
    cases hp
    exact ⟨.alternatives hchoices hbar hlast, hnodup⟩
  | coloned => cases hp
  | bound hfirst hcolon hname =>
    cases hp
    exact ⟨.bound hfirst hcolon hname, List.nodup_singleton _⟩

/-- The tokens of a group whose last position is complete. -/
theorem Place.Behind.spells {taken : List Lexeme} {start : Nat} {params : List Parameter}
    {slot : Slot} {p : Parameter} (h : Place.Behind taken (.inside start params slot))
    (hp : slot.parameter? = some p) :
    ∃ opening lexemes, taken = opening :: lexemes ∧ opening.kind = .openBracket ∧
      SpellsParameters lexemes (params ++ [p]) ∧ DistinctChoices (params ++ [p]) := by
  cases h with
  | inside hopening hparams hdistinct _ hslot =>
    obtain ⟨hspells, hnodup⟩ := hslot.spells hp
    exact ⟨_, _, rfl, hopening, hparams.concat hspells, hdistinct.concat hnodup⟩

/-! ### What the tokens taken so far spell -/

theorem Place.Behind.opened {opening : Lexeme} {start : Nat} (h : opening.kind = .openBracket) :
    Place.Behind [opening] (.inside start [] .opened) :=
  .inside h .none .nil (fun _ => ⟨rfl, rfl⟩) .opened

/-- A token that belongs to the current position. -/
theorem Place.Behind.advance {taken : List Lexeme} {start : Nat} {params : List Parameter}
    {slot slot' : Slot} {l : Lexeme} (h : Place.Behind taken (.inside start params slot))
    (hopened : slot' ≠ .opened) (hslot : ∀ here, slot.Behind here → slot'.Behind (here ++ [l])) :
    Place.Behind (taken ++ [l]) (.inside start params slot') := by
  cases h with
  | inside hopening hparams hdistinct _ hhere =>
    rw [List.append_assoc]
    exact .inside hopening hparams hdistinct (fun h => absurd h hopened) (hslot _ hhere)

theorem Place.Behind.step {taken : List Lexeme} {start : Nat} {params : List Parameter}
    {slot : Slot} {l : Lexeme} {place : Place}
    (h : Place.Behind taken (.inside start params slot))
    (hstep : StepsInside start params slot l place) : Place.Behind (taken ++ [l]) place := by
  cases hstep with
  | comma hp hkind =>
    obtain ⟨opening, lexemes, rfl, hopening, hparams, hdistinct⟩ := h.spells hp
    have hfinished : FinishedParameters (lexemes ++ [l]) (params ++ [_]) := .some hparams hkind
    simpa using Place.Behind.inside hopening hfinished hdistinct (by simp) .separated
  | close hp hkind =>
    obtain ⟨opening, lexemes, rfl, hopening, hparams, hdistinct⟩ := h.spells hp
    exact .closed (.mandatory hopening (.present hparams) hkind) hdistinct
  | closeEmpty hkind =>
    cases h with
    | inside hopening hparams hdistinct hempty hhere =>
      cases hhere
      obtain ⟨rfl, rfl⟩ := hempty rfl
      exact .closed (.mandatory hopening .absent hkind) hdistinct
  | begin hslot hkind =>
    refine h.advance (by simp) ?_
    intro here hhere
    rcases hslot with rfl | rfl
    · cases hhere
      exact .typed hkind
    · cases hhere
      exact .typed hkind
  | bar hkind =>
    refine h.advance (by simp) ?_
    intro here hhere
    cases hhere with
    | typed hfirst => exact .piped (.one hfirst) (List.nodup_singleton _) hkind
  | colon hkind =>
    refine h.advance (by simp) ?_
    intro here hhere
    cases hhere with
    | typed hfirst => exact .coloned hfirst hkind
  | alternative hkind hnew =>
    refine h.advance (by simp) ?_
    intro here hhere
    cases hhere with
    | piped hchoices hnodup hbar =>
      have hnodup' : (_ ++ [_]).Nodup := List.concat_eq_append ▸ hnodup.concat hnew
      rw [List.append_assoc]
      exact .alternated hchoices hnodup' hbar hkind
  | anotherBar hkind =>
    refine h.advance (by simp) ?_
    intro here hhere
    cases hhere with
    | alternated hchoices hnodup hbar hlast => exact .piped (.more hchoices hbar hlast) hnodup hkind
  | name hkind =>
    refine h.advance (by simp) ?_
    intro here hhere
    cases hhere with
    | coloned hfirst hcolon => exact .bound hfirst hcolon hkind

/-- Whatever token the reader takes, it still holds what the tokens spell. -/
theorem Progress.Behind.step {source : List Char} {taken : List Lexeme} {p p' : Progress}
    {l : Lexeme} (h : p.Behind taken) (hstep : p.step source l = .ok p') :
    p'.Behind (taken ++ [l]) := by
  obtain ⟨before, done, here, rfl, hleft, hdone, hdistinct, hplace⟩ := h
  cases Progress.step_eq_ok_iff.1 hstep with
  | first hkind =>
    cases hplace
    exact ⟨before, done, [l], by simp, hleft, hdone, hdistinct, .opened hkind⟩
  | inside hinside =>
    exact ⟨before, done, here ++ [l], by simp, hleft, hdone, hdistinct, hplace.step hinside⟩
  | question hkind =>
    cases hplace with
    | closed hgroup hchoices =>
      exact ⟨before, done, here ++ [l], by simp, hleft, hdone, hdistinct,
        .closed (.optional hgroup hkind) hchoices⟩
  | another hkind =>
    cases hplace with
    | closed hgroup hchoices =>
      refine ⟨before, done ++ here, [l], by simp, hleft, ?_, hdistinct.concat hchoices,
        .opened hkind⟩
      rw [List.map_append, List.map_singleton]
      exact .present (hdone.concat hgroup)
  | @projection groups l last hkind horder =>
    cases hplace with
    | closed hgroup hchoices =>
      cases hleft
      have hgroups : SpellsGroups (done ++ here) ((groups ++ [last]).map WrittenGroup.group) := by
        rw [List.map_append, List.map_singleton]
        exact hdone.concat hgroup
      have hleft : LeftBehind (done ++ here ++ [l]) (some (groups ++ [last])) :=
        .some hgroups (hdistinct.concat hchoices) horder hkind
      exact ⟨_, [], [], by simp, hleft, .absent, .nil, .fresh⟩

theorem Progress.behind_foldlM {source : List Char} {lexemes : List Lexeme} {p : Progress}
    (h : lexemes.foldlM (Progress.step source) Progress.start = .ok p) : p.Behind lexemes := by
  refine foldlM_ok_inv (fun taken p => p.Behind taken) [] ?_ ?_ h
  · exact ⟨[], [], [], rfl, .none, .absent, .nil, .fresh⟩
  · intro taken l rest p p' _ hp hstep
    exact hp.step hstep

/-! ### The conditions -/

theorem misplaced?_eq_none_iff {groups : List WrittenGroup} : misplaced? groups = none ↔
    (groups.map WrittenGroup.group).Pairwise
      (fun before behind => before.optional = true → behind.optional = true) := by
  induction groups with
  | nil => simp [misplaced?]
  | cons w groups ih =>
    rw [misplaced?, List.map_cons, List.pairwise_cons]
    cases hw : w.group.optional with
    | true =>
      have hfind : groups.find? (fun v => !v.group.optional) = none ↔
          ∀ g ∈ groups.map WrittenGroup.group, g.optional = true := by
        simp
      rw [if_pos rfl, hfind]
      constructor
      · intro hall
        refine ⟨fun g hg _ => hall g hg, ?_⟩
        exact List.pairwise_of_forall_mem_list fun _ _ g hg _ => hall g hg
      · intro h g hg
        exact h.1 g hg rfl
    | false => simp [ih]

theorem plainName?_eq_some_iff {p : Parameter} {name : String} :
    plainName? p = some name ↔ p = plainParameter name := by
  unfold plainName? plainParameter
  split
  · simp
  · next h =>
    constructor
    · intro hnone
      cases hnone
    · rintro rfl
      exact absurd rfl (h name)

theorem mapM_plainName?_eq_some_iff : ∀ {params : List Parameter} {names : List String},
    params.mapM plainName? = some names ↔ params = names.map plainParameter
  | [], names => by simp [eq_comm]
  | p :: params, names => by
    rw [List.mapM_cons, eq_comm (a := p :: params), List.map_eq_cons_iff]
    constructor
    · intro h
      obtain ⟨name, hname, h⟩ := Option.bind_eq_some_iff.1 h
      obtain ⟨rest, hrest, h⟩ := Option.bind_eq_some_iff.1 h
      cases h
      exact ⟨name, rest, rfl, (plainName?_eq_some_iff.1 hname).symm,
        (mapM_plainName?_eq_some_iff.1 hrest).symm⟩
    · rintro ⟨name, rest, rfl, hname, hrest⟩
      rw [plainName?_eq_some_iff.2 hname.symm, mapM_plainName?_eq_some_iff.2 hrest.symm]
      rfl

theorem projectedNames_eq_ok_iff : ∀ {groups : List WrittenGroup} {names : List String},
    projectedNames groups = .ok names ↔
      (groups.map WrittenGroup.group).flatMap Group.params = names.map plainParameter
  | [], names => by simp [projectedNames, eq_comm]
  | w :: groups, names => by
    rw [projectedNames, List.map_cons, List.flatMap_cons]
    constructor
    · intro h
      split at h
      · next here hhere =>
        obtain ⟨rest, hrest, rfl⟩ := map_eq_ok.1 h
        rw [mapM_plainName?_eq_some_iff.1 hhere, projectedNames_eq_ok_iff.1 hrest, List.map_append]
      · cases h
    · intro h
      obtain ⟨here, rest, rfl, hhere, hrest⟩ := List.map_eq_append_iff.1 h.symm
      rw [mapM_plainName?_eq_some_iff.2 hhere.symm]
      exact map_eq_ok.2 ⟨rest, projectedNames_eq_ok_iff.2 hrest.symm, rfl⟩

theorem uniformlyNamed_iff {params : List Parameter} : UniformlyNamed params ↔
    (∀ p ∈ params, p.name = none) ∨ ∀ p ∈ params, p.name ≠ none := by
  simp [UniformlyNamed, Option.ne_none_iff_isSome]

/-! ### Soundness -/

theorem distinctChoices_params {groups : List WrittenGroup} (h : DistinctGroups groups) :
    DistinctChoices ((groups.map WrittenGroup.group).flatMap Group.params) := by
  intro p hp
  simp only [List.mem_flatMap, List.mem_map] at hp
  obtain ⟨_, ⟨w, hw, rfl⟩, hp⟩ := hp
  exact h w hw p hp

theorem Progress.Behind.finish {source : List Char} {lexemes : List Lexeme} {p : Progress}
    {s : Signature} (h : p.Behind lexemes) (hs : p.finish source = .ok s) :
    s.SpelledBy lexemes ∧ s.WellFormed := by
  obtain ⟨left, groups, place⟩ := p
  obtain ⟨before, done, here, rfl, hleft, hdone, hdistinct, hplace⟩ := h
  unfold Progress.finish at hs
  split at hs
  · cases hs
  · cases hs
  · next last hlast =>
    cases hlast
    cases hplace with
    | closed hgroup hchoices =>
      have hgroups : SpellsGroups (done ++ here) ((groups ++ [last]).map WrittenGroup.group) := by
        rw [List.map_append, List.map_singleton]
        exact hdone.concat hgroup
      dsimp only at hs hleft
      cases hleft with
      | none =>
        obtain ⟨⟨⟩, horder, hs⟩ := bind_eq_ok.1 hs
        split at hs
        · next huniform =>
          cases hs
          refine ⟨⟨none, ?_, .absent⟩, ?_, ?_, ?_⟩
          · exact .plain hgroups
          · exact misplaced?_eq_none_iff.1 (checkOrder_eq_ok_iff.1 horder)
          · exact distinctChoices_params (hdistinct.concat hchoices)
          · intro _
            exact uniformlyNamed_iff.1 huniform
        · cases hs
      | some hbefore hdistinctLeft horder harrow =>
        obtain ⟨names, hnames, hs⟩ := bind_eq_ok.1 hs
        cases hs
        refine ⟨⟨_, ?_, .names (projectedNames_eq_ok_iff.1 hnames)⟩, ?_, ?_, ?_⟩
        · simpa using SpellsSides.projected hbefore harrow hgroups
        · exact misplaced?_eq_none_iff.1 horder
        · exact distinctChoices_params hdistinctLeft
        · intro hnone
          cases hnone

/-- What is read is spelled by the tokens and meets the conditions. -/
theorem spelledBy_of_ofLexemes {source : List Char} {lexemes : List Lexeme} {s : Signature}
    (h : ofLexemes source lexemes = .ok s) : s.SpelledBy lexemes ∧ s.WellFormed := by
  unfold ofLexemes at h
  split at h
  · cases h
  · obtain ⟨p, hp, h⟩ := bind_eq_ok.1 h
    exact (Progress.behind_foldlM hp).finish h

theorem spelledBy_of_read {text : String} {s : Signature} (h : read text = .ok s) :
    s.SpelledBy (Lexeme.scan text.toList) ∧ s.WellFormed :=
  spelledBy_of_ofLexemes (mapError_eq_ok.1 h)

/-- Optional groups come last in every signature that is read. -/
theorem optionalLast_of_read {text : String} {s : Signature} (h : read text = .ok s) :
    s.OptionalLast := (spelledBy_of_read h).2.optionalLast

end ShapeDispatch.Signature
