import ShapeDispatch.Proofs.Reading

/-!
Where it stands what has been read. The bytes that the reader notes down for a group are those from its
first token to its last, and the name that it notes down for a position is a token that it has taken
(`Progress.Located`, `Progress.Located.step`). So the group that it finds misplaced can be pointed out
among the tokens (`Progress.Located.firstMisplaced`).
-/

namespace ShapeDispatch.Signature

/-- The first name of the position that is being read. -/
def Slot.first? : Slot → Option Lexeme
  | opened => none
  | separated => none
  | typed first => some first
  | piped first _ => some first
  | alternated first _ => some first
  | coloned first => some first
  | bound first _ => some first

/-- The span of some tokens, from the first to the last. -/
def Spans (lexemes : List Lexeme) (span : Span) : Prop :=
  ∃ first ∈ lexemes.head?, ∃ last ∈ lexemes.getLast?, span = ⟨first.span.start, last.span.stop⟩

/-- The tokens are those of the groups, one behind the other, each with its span. -/
inductive Written : List Lexeme → List WrittenGroup → Prop where
  | none : Written [] []
  | more {lexemes here : List Lexeme} {groups : List WrittenGroup} {w : WrittenGroup} :
    Written lexemes groups → SpellsGroup here w.group → Spans here w.span →
      Written (lexemes ++ here) (groups ++ [w])

/-- The tokens that have been taken since the last whole group, where the place says that the group
begins and its position does. -/
inductive Place.Located : List Lexeme → Place → Prop where
  | fresh : Located [] .fresh
  | inside {opening : Lexeme} {here : List Lexeme} {params : List Parameter} {slot : Slot} :
    Place.Behind (opening :: here) (.inside opening.span.start params slot) →
      (∀ first, slot.first? = some first → first ∈ here) →
        Located (opening :: here) (.inside opening.span.start params slot)
  | closed {here : List Lexeme} {w : WrittenGroup} :
    Place.Behind here (.closed w) → Spans here w.span → Located here (.closed w)

/-- All tokens that have been taken: those up to `>`, the finished groups behind it and the rest. -/
def Progress.Located (taken : List Lexeme) (p : Progress) : Prop :=
  ∃ before done here, taken = before ++ done ++ here ∧ (p.left = none → before = []) ∧
    Written done p.groups ∧ p.place.Located here

theorem Spans.concat {lexemes : List Lexeme} {span : Span} (h : Spans lexemes span) (l : Lexeme) :
    Spans (lexemes ++ [l]) ⟨span.start, l.span.stop⟩ := by
  obtain ⟨first, hfirst, last, _, rfl⟩ := h
  refine ⟨first, ?_, l, by simp, rfl⟩
  rw [List.head?_append, hfirst]
  rfl

/-- A token inside a group does not move its beginning, nor that of a position unless it is its first. -/
theorem StepsInside.first? {start start' : Nat} {params params' : List Parameter}
    {slot slot' : Slot} {l : Lexeme}
    (h : StepsInside start params slot l (.inside start' params' slot')) :
    start' = start ∧ ∀ first, slot'.first? = some first → slot.first? = some first ∨ first = l := by
  cases h <;> simp [Slot.first?, eq_comm]

theorem StepsInside.span_eq {start : Nat} {params : List Parameter} {slot : Slot} {l : Lexeme}
    {w : WrittenGroup} (h : StepsInside start params slot l (.closed w)) :
    w.span = ⟨start, l.span.stop⟩ := by
  cases h <;> rfl

theorem Place.Located.step {taken : List Lexeme} {start : Nat} {params : List Parameter}
    {slot : Slot} {l : Lexeme} {place : Place}
    (h : Place.Located taken (.inside start params slot))
    (hstep : StepsInside start params slot l place) : Place.Located (taken ++ [l]) place := by
  cases h with
  | @inside opening here _ _ hbehind hfirst =>
    have hbehind := hbehind.step hstep
    cases place with
    | fresh => cases hstep
    | inside start' params' slot' =>
      obtain ⟨rfl, hslot⟩ := hstep.first?
      refine .inside hbehind (fun first h => ?_)
      rcases hslot first h with h | rfl
      · exact List.mem_append_left _ (hfirst first h)
      · exact List.mem_append_right _ (List.mem_singleton_self first)
    | closed w =>
      refine .closed hbehind ?_
      rw [hstep.span_eq]
      exact ⟨opening, rfl, l, List.getLast?_concat, rfl⟩

theorem Place.Located.opened {opening : Lexeme} (h : opening.kind = .openBracket) :
    Place.Located [opening] (.inside opening.span.start [] .opened) :=
  .inside (.opened h) (by simp [Slot.first?])

/-- Whatever token the reader takes, it still knows where everything stands. -/
theorem Progress.Located.step {source : List Char} {taken : List Lexeme} {p p' : Progress}
    {l : Lexeme} (h : p.Located taken) (hstep : p.step source l = .ok p') :
    p'.Located (taken ++ [l]) := by
  obtain ⟨before, done, here, rfl, hbefore, hdone, hplace⟩ := h
  cases Progress.step_eq_ok_iff.1 hstep with
  | first hkind =>
    cases hplace
    exact ⟨before, done, [l], by simp, hbefore, hdone, .opened hkind⟩
  | inside hinside =>
    exact ⟨before, done, here ++ [l], by simp, hbefore, hdone, hplace.step hinside⟩
  | question hkind =>
    cases hplace with
    | closed hbehind hspan =>
      cases hbehind with
      | closed hgroup hchoices =>
        exact ⟨before, done, here ++ [l], by simp, hbefore, hdone,
          .closed (.closed (.optional hgroup hkind) hchoices) (hspan.concat l)⟩
  | another hkind =>
    cases hplace with
    | closed hbehind hspan =>
      cases hbehind with
      | closed hgroup _ =>
        exact ⟨before, done ++ here, [l], by simp, hbefore, .more hdone hgroup hspan, .opened hkind⟩
  | projection =>
    exact ⟨before ++ done ++ here ++ [l], [], [], by simp, by simp, .none, .fresh⟩

theorem Progress.located_foldlM {source : List Char} {lexemes : List Lexeme} {p : Progress}
    (h : lexemes.foldlM (Progress.step source) Progress.start = .ok p) : p.Located lexemes := by
  refine foldlM_ok_inv (fun taken p => p.Located taken) [] ?_ ?_ h
  · exact ⟨[], [], [], rfl, fun _ => rfl, .none, .fresh⟩
  · intro taken l rest p p' _ hp hstep
    exact hp.step hstep

theorem Progress.Located.first_mem {taken : List Lexeme} {p : Progress} {start : Nat}
    {params : List Parameter} {slot : Slot} {first : Lexeme} (h : p.Located taken)
    (hplace : p.place = .inside start params slot) (hfirst : slot.first? = some first) :
    first ∈ taken := by
  obtain ⟨before, done, here, rfl, _, _, hhere⟩ := h
  rw [hplace] at hhere
  cases hhere with
  | inside _ hhere =>
    exact List.mem_append_right _ (List.mem_cons_of_mem _ (hhere first hfirst))

/-! ### The first misplaced group -/

/-- Between other tokens stand those of the first mandatory group behind an optional one. -/
structure FirstMisplaced (before here behind : List Lexeme) : Prop where
  /-- Before it there are optional groups, and these come last. -/
  optionalBefore : ∃ groups, SpellsGroups before groups ∧ (∃ g ∈ groups, g.optional = true) ∧
    groups.Pairwise (fun a b => a.optional = true → b.optional = true)
  mandatory : ∃ params, SpellsGroup here ⟨params, false⟩
  unmarked : ∀ l ∈ behind.head?, l.kind ≠ .question

theorem exists_of_misplaced? : ∀ {groups : List WrittenGroup} {w : WrittenGroup},
    misplaced? groups = some w → ∃ before behind, groups = before ++ w :: behind ∧
      w.group.optional = false ∧ (∃ v ∈ before, v.group.optional = true) ∧ misplaced? before = none
  | [], _, h => by cases h
  | v :: groups, w, h => by
    rw [misplaced?] at h
    split at h
    · next hv =>
      obtain ⟨hw, before, behind, rfl, hbefore⟩ := List.find?_eq_some_iff_append.1 h
      refine ⟨v :: before, behind, rfl, by simpa using hw, ⟨v, by simp, hv⟩, ?_⟩
      rw [misplaced?, if_pos hv]
      exact List.find?_eq_none.2 (by simpa using hbefore)
    · next hv =>
      obtain ⟨before, behind, rfl, hw, ⟨u, hu, hopt⟩, hbefore⟩ := exists_of_misplaced? h
      refine ⟨v :: before, behind, rfl, hw, ⟨u, List.mem_cons_of_mem v hu, hopt⟩, ?_⟩
      rw [misplaced?, if_neg hv, hbefore]

theorem SpellsGroup.exists_opening {lexemes : List Lexeme} {g : Group} (h : SpellsGroup lexemes g) :
    ∃ opening rest, lexemes = opening :: rest ∧ opening.kind = .openBracket := by
  induction h with
  | mandatory hopening => exact ⟨_, _, rfl, hopening⟩
  | optional _ _ ih =>
    obtain ⟨opening, rest, rfl, hopening⟩ := ih
    exact ⟨opening, _, rfl, hopening⟩

theorem Optionally.of_ne_nil {α : Type} {Spells : List Lexeme → List α → Prop}
    {lexemes : List Lexeme} {items : List α} (h : Optionally Spells lexemes items)
    (hne : items ≠ []) : Spells lexemes items := by
  cases h with
  | absent => exact absurd rfl hne
  | present hitems => exact hitems

theorem Written.spells {lexemes : List Lexeme} {groups : List WrittenGroup}
    (h : Written lexemes groups) : Optionally SpellsGroups lexemes (groups.map WrittenGroup.group) := by
  induction h with
  | none => exact .absent
  | more _ hgroup _ ih =>
    rw [List.map_append, List.map_singleton]
    exact .present (ih.concat hgroup)

/-- The tokens of one group among several. Behind it another begins, if it is not the last. -/
theorem Written.split {lexemes : List Lexeme} {before behind : List WrittenGroup} {w : WrittenGroup}
    (h : Written lexemes (before ++ w :: behind)) : ∃ start here rest,
      lexemes = start ++ here ++ rest ∧ Written start before ∧ SpellsGroup here w.group ∧
        Spans here w.span ∧ (∀ l ∈ rest.head?, l.kind = .openBracket) ∧ (rest = [] → behind = []) := by
  generalize hgroups : before ++ w :: behind = groups at h
  induction h generalizing behind with
  | none => simp at hgroups
  | @more lexemes last groups v hwritten hgroup hspan ih =>
    rcases List.eq_nil_or_concat behind with rfl | ⟨behind, u, rfl⟩
    · obtain ⟨rfl, hv⟩ := List.append_inj' hgroups rfl
      cases hv
      exact ⟨lexemes, last, [], by simp, hwritten, hgroup, hspan, by simp, by simp⟩
    · rw [List.concat_eq_append, ← List.cons_append, ← List.append_assoc] at hgroups
      obtain ⟨rfl, hv⟩ := List.append_inj' hgroups rfl
      obtain ⟨start, here, rest, rfl, hstart, hhere, hfrom, hrest, _⟩ := ih rfl
      obtain ⟨opening, tail, rfl, hopening⟩ := hgroup.exists_opening
      refine ⟨start, here, rest ++ opening :: tail, by simp, hstart, hhere, hfrom, ?_, by simp⟩
      cases rest with
      | nil => simpa using hopening
      | cons first rest => simpa using hrest

/-- Behind a group, the tokens of this side of `>` are those of its groups. -/
theorem Progress.Located.written {taken : List Lexeme} {p : Progress} {last : WrittenGroup}
    (h : p.Located taken) (hplace : p.place = .closed last) : ∃ before lexemes,
      taken = before ++ lexemes ∧ (p.left = none → before = []) ∧
        Written lexemes (p.groups ++ [last]) := by
  obtain ⟨before, done, here, rfl, hbefore, hdone, hhere⟩ := h
  rw [hplace] at hhere
  cases hhere with
  | closed hbehind hspan =>
    cases hbehind with
    | closed hgroup _ =>
      exact ⟨before, done ++ here, by simp, hbefore, hdone.more hgroup hspan⟩

theorem Progress.Located.firstMisplaced {taken more : List Lexeme} {p : Progress}
    {last w : WrittenGroup} (h : p.Located taken) (hplace : p.place = .closed last)
    (hleft : p.left = none) (hw : misplaced? (p.groups ++ [last]) = some w)
    (hmark : ∀ l ∈ more.head?, l.kind = .question → last.group.optional = true) :
    ∃ before here behind, taken ++ more = before ++ here ++ behind ∧
      FirstMisplaced before here behind ∧ Spans here w.span := by
  obtain ⟨_, lexemes, rfl, hbefore, hwritten⟩ := h.written hplace
  obtain ⟨before, behind, hsplit, hmandatory, ⟨v, hv, hopt⟩, horder⟩ := exists_of_misplaced? hw
  rw [hsplit] at hwritten
  obtain ⟨start, here, rest, hlexemes, hstart, hhere, hspan, hrest, hlast⟩ := hwritten.split
  refine ⟨start, here, rest ++ more, ?_, ⟨?_, ?_, ?_⟩, hspan⟩
  · rw [hbefore hleft, List.nil_append, hlexemes, List.append_assoc]
  · have hmem : v.group ∈ before.map WrittenGroup.group := List.mem_map_of_mem hv
    exact ⟨_, hstart.spells.of_ne_nil (List.ne_nil_of_mem hmem), ⟨v.group, hmem, hopt⟩,
      misplaced?_eq_none_iff.1 horder⟩
  · exact ⟨w.group.params, hmandatory ▸ hhere⟩
  · intro l hl hkind
    cases rest with
    | nil =>
      -- then the misplaced group is the last one, and what follows does not mark it
      obtain rfl := hlast rfl
      obtain ⟨_, hw⟩ := List.append_inj' hsplit rfl
      cases hw
      rw [hmark l hl hkind] at hmandatory
      cases hmandatory
    | cons first rest =>
      rw [hrest l hl] at hkind
      cases hkind

end ShapeDispatch.Signature
