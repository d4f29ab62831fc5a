import ShapeDispatch.Proofs.Reading

/-!
The reader accepts whatever the grammar and its conditions allow (`ofLexemes_of_spelledBy`). Each lemma
follows one rule: from a place where the piece may begin, its tokens lead to a place behind it.
-/

namespace ShapeDispatch.Signature

/-- The reader takes these tokens, one after the other. -/
def Leads (source : List Char) (p : Progress) (lexemes : List Lexeme) (p' : Progress) : Prop :=
  lexemes.foldlM (Progress.step source) p = .ok p'

section
variable {source : List Char} {p p' p'' : Progress} {lexemes rest : List Lexeme} {l : Lexeme}

theorem Leads.append (h : Leads source p lexemes p') (h' : Leads source p' rest p'') :
    Leads source p (lexemes ++ rest) p'' := by
  rw [Leads, List.foldlM_append]
  exact bind_eq_ok.2 ⟨p', h, h'⟩

theorem Steps.leads (h : Steps p l p') : Leads source p [l] p' := by
  rw [Leads, List.foldlM_cons]
  exact bind_eq_ok.2 ⟨p', Progress.step_eq_ok_iff.2 h, rfl⟩

end

/-- The names of the current position are `names`. -/
def Slot.Chosen (slot : Slot) (names : List String) : Prop :=
  ∃ first, (slot = .typed first ∧ names = [first.text]) ∨ slot = .alternated first names

theorem Slot.Chosen.bar {slot : Slot} {names : List String} {l : Lexeme} {start : Nat}
    {params : List Parameter} (h : slot.Chosen names) (hl : l.kind = .pipe) :
    ∃ first, StepsInside start params slot l (.inside start params (.piped first names)) := by
  obtain ⟨first, ⟨rfl, rfl⟩ | rfl⟩ := h
  · exact ⟨first, .bar hl⟩
  · exact ⟨first, .anotherBar hl⟩

section
variable {source : List Char} {left : Option (List WrittenGroup)} {groups : List WrittenGroup}
  {start : Nat} {params : List Parameter} {slot : Slot} {lexemes : List Lexeme}

/-- A bar and a further name. -/
theorem leads_alternative {names : List String} {bar a : Lexeme} (h : slot.Chosen names)
    (hbar : bar.kind = .pipe) (ha : a.kind = .name) (hnew : a.text ∉ names) :
    ∃ first, Leads source ⟨left, groups, .inside start params slot⟩ [bar, a]
      ⟨left, groups, .inside start params (.alternated first (names ++ [a.text]))⟩ := by
  obtain ⟨first, hfirst⟩ := h.bar hbar
  exact ⟨first, (Steps.inside hfirst).leads.append (Steps.inside (.alternative ha hnew)).leads⟩

theorem leads_choices {names : List String} (hslot : slot = .opened ∨ slot = .separated)
    (h : SpellsChoices lexemes names) (hnodup : names.Nodup) :
    ∃ slot', slot'.Chosen names ∧ Leads source ⟨left, groups, .inside start params slot⟩ lexemes
      ⟨left, groups, .inside start params slot'⟩ := by
  induction h with
  | one ha => exact ⟨_, ⟨_, Or.inl ⟨rfl, rfl⟩⟩, (Steps.inside (.begin hslot ha)).leads⟩
  | more _ hbar ha ih =>
    obtain ⟨hnodup, _, hnew⟩ := List.nodup_append.1 hnodup
    obtain ⟨slot', hchosen, hleads⟩ := ih hnodup
    obtain ⟨first, hlast⟩ := leads_alternative hchosen hbar ha (fun h => hnew _ h _ (by simp) rfl)
    exact ⟨_, ⟨first, Or.inr rfl⟩, hleads.append hlast⟩

theorem leads_parameter {p : Parameter} (hslot : slot = .opened ∨ slot = .separated)
    (h : SpellsParameter lexemes p) (hnodup : p.type.choices.Nodup) :
    ∃ slot', slot'.parameter? = some p ∧
      Leads source ⟨left, groups, .inside start params slot⟩ lexemes
        ⟨left, groups, .inside start params slot'⟩ := by
  cases h with
  | plain ha => exact ⟨_, rfl, (Steps.inside (.begin hslot ha)).leads⟩
  | @bound a colon b ha hcolon hb =>
    refine ⟨.bound a b.text, rfl, (Steps.inside (.begin hslot ha)).leads.append ?_⟩
    exact (Steps.inside (.colon hcolon)).leads.append (Steps.inside (.name hb)).leads
  | alternatives hchoices hbar ha =>
    obtain ⟨hnodup, _, hnew⟩ := List.nodup_append.1 hnodup
    obtain ⟨slot', hchosen, hleads⟩ := leads_choices hslot hchoices hnodup
    obtain ⟨first, hlast⟩ := leads_alternative hchosen hbar ha (fun h => hnew _ h _ (by simp) rfl)
    exact ⟨_, rfl, hleads.append hlast⟩

theorem leads_parameters (h : SpellsParameters lexemes params) (hdistinct : DistinctChoices params) :
    ∃ before p slot', before ++ [p] = params ∧ slot'.parameter? = some p ∧
      Leads source ⟨left, groups, .inside start [] .opened⟩ lexemes
        ⟨left, groups, .inside start before slot'⟩ := by
  induction h with
  | one hp =>
    obtain ⟨slot', hslot', hleads⟩ := leads_parameter (Or.inl rfl) hp (hdistinct _ (by simp))
    exact ⟨[], _, slot', rfl, hslot', hleads⟩
  | @more lexemes last params comma q _ hcomma hq ih =>
    obtain ⟨before, p, slot', rfl, hslot', hleads⟩ :=
      ih (fun r hr => hdistinct r (List.mem_append_left _ hr))
    obtain ⟨slot'', hslot'', hlast⟩ := leads_parameter (Or.inr rfl) hq (hdistinct _ (by simp))
    refine ⟨before ++ [p], q, slot'', rfl, hslot'', hleads.append ?_⟩
    exact (Steps.inside (.comma hslot' hcomma)).leads.append hlast

/-- A group may stand wherever a bracket opens one. -/
theorem leads_group {p : Progress} {g : Group}
    (hopen : ∀ opening : Lexeme, opening.kind = .openBracket →
      Steps p opening ⟨left, groups, .inside opening.span.start [] .opened⟩)
    (h : SpellsGroup lexemes g) (hdistinct : DistinctChoices g.params) :
    ∃ w : WrittenGroup, w.group = g ∧ Leads source p lexemes ⟨left, groups, .closed w⟩ := by
  induction h with
  | mandatory hopening hparams hclosing =>
    cases hparams with
    | absent =>
      exact ⟨_, rfl, (hopen _ hopening).leads.append (Steps.inside (.closeEmpty hclosing)).leads⟩
    | present hparams =>
      obtain ⟨before, p, slot', rfl, hslot', hleads⟩ := leads_parameters hparams hdistinct
      exact ⟨_, rfl, (hopen _ hopening).leads.append
        (hleads.append (Steps.inside (.close hslot' hclosing)).leads)⟩
  | optional _ hquestion ih =>
    obtain ⟨⟨_, span⟩, rfl, hleads⟩ := ih hdistinct
    exact ⟨_, rfl, hleads.append (Steps.question hquestion).leads⟩

theorem leads_groups {all : List Group} (h : SpellsGroups lexemes all)
    (hdistinct : DistinctChoices (all.flatMap Group.params)) :
    ∃ done last, (done ++ [last]).map WrittenGroup.group = all ∧
      Leads source ⟨left, [], .fresh⟩ lexemes ⟨left, done, .closed last⟩ := by
  induction h with
  | one hg =>
    obtain ⟨w, rfl, hleads⟩ := leads_group (fun _ => Steps.first) hg (by simpa using hdistinct)
    exact ⟨[], w, rfl, hleads⟩
  | @more lexemes last all g _ hg ih =>
    rw [List.flatMap_append, List.flatMap_singleton] at hdistinct
    obtain ⟨done, w, rfl, hleads⟩ := ih (fun p hp => hdistinct p (List.mem_append_left _ hp))
    obtain ⟨v, rfl, hlast⟩ := leads_group (fun _ => Steps.another) hg
      (fun p hp => hdistinct p (List.mem_append_right _ hp))
    exact ⟨done ++ [w], v, by simp, hleads.append hlast⟩

end

theorem SpellsGroup.ne_nil {lexemes : List Lexeme} {g : Group} (h : SpellsGroup lexemes g) :
    lexemes ≠ [] := by
  cases h <;> simp

theorem SpellsGroups.ne_nil {lexemes : List Lexeme} {groups : List Group}
    (h : SpellsGroups lexemes groups) : lexemes ≠ [] := by
  cases h with
  | one hg => exact hg.ne_nil
  | more _ hg => simp [hg.ne_nil]

theorem SpellsSides.ne_nil {lexemes : List Lexeme} {left : List Group}
    {right : Option (List Group)} (h : SpellsSides lexemes left right) : lexemes ≠ [] := by
  cases h with
  | plain hleft => exact hleft.ne_nil
  | projected => simp

theorem distinctChoices_plain {params : List Parameter} {names : List String}
    (h : params = names.map plainParameter) : DistinctChoices params := by
  subst h
  intro p hp
  obtain ⟨name, _, rfl⟩ := List.mem_map.1 hp
  exact List.nodup_singleton _

/-- A signature that the tokens spell and that meets the conditions is read. -/
theorem ofLexemes_of_spelledBy {source : List Char} {lexemes : List Lexeme} {s : Signature}
    (h : s.SpelledBy lexemes) (hs : s.WellFormed) : ofLexemes source lexemes = .ok s := by
  obtain ⟨groups, projection⟩ := s
  obtain ⟨right, hsides, hprojects⟩ := h
  have hnonempty : ¬ lexemes.isEmpty = true := by simpa using hsides.ne_nil
  rw [ofLexemes, if_neg hnonempty]
  dsimp only at hsides hprojects
  cases hsides with
  | plain hleft =>
    cases hprojects
    obtain ⟨done, last, rfl, hleads⟩ := leads_groups hleft hs.distinctChoices
    have horder : checkOrder (done ++ [last]) = .ok () :=
      checkOrder_eq_ok_iff.2 (misplaced?_eq_none_iff.2 hs.optionalLast)
    have huniform := uniformlyNamed_iff.2 (hs.uniform rfl)
    refine bind_eq_ok.2 ⟨_, hleads, ?_⟩
    simp only [Progress.finish, horder]
    exact if_pos huniform
  | projected hleft harrow hright =>
    cases hprojects with
    | names hnames =>
      obtain ⟨done, last, rfl, hleads⟩ := leads_groups hleft hs.distinctChoices
      obtain ⟨done', last', rfl, hrest⟩ := leads_groups hright (distinctChoices_plain hnames)
      have harrow' := Steps.projection harrow (misplaced?_eq_none_iff.2 hs.optionalLast)
      refine bind_eq_ok.2 ⟨_, hleads.append (harrow'.leads.append hrest), ?_⟩
      simp only [Progress.finish, projectedNames_eq_ok_iff.2 hnames]
      rfl

/-- ACCEPTANCE: a text is read as a signature exactly if its tokens derive that signature from the
grammar and the signature meets the conditions; so the reader refuses everything else, and drops and
adds nothing. -/
theorem read_eq_ok_iff {text : String} {s : Signature} :
    read text = .ok s ↔ s.SpelledBy (Lexeme.scan text.toList) ∧ s.WellFormed := by
  rw [read, mapError_eq_ok]
  exact ⟨spelledBy_of_ofLexemes, fun h => ofLexemes_of_spelledBy h.1 h.2⟩

end ShapeDispatch.Signature
