import Mathlib.Data.List.Induction
import ShapeDispatch.Proofs.Acceptance
import ShapeDispatch.Proofs.Lexing

/-!
The text of a signature that was read is read as that signature (`read_render`). Whatever tokens a
position was spelled by, the tokens of its text spell it too, because its names are names to the
scanner; groups and sides are then put together in the order in which their texts are.
-/

namespace ShapeDispatch.Signature

/-- The name tokens cover names. -/
def ProperNames (lexemes : List Lexeme) : Prop :=
  ∀ l ∈ lexemes, l.kind = .name → Lexeme.IsName l.chars

/-- The position can be spelled. -/
def Spellable (p : Parameter) : Prop := ∃ lexemes, SpellsParameter lexemes p ∧ ProperNames lexemes

theorem ProperNames.left {lexemes rest : List Lexeme} (h : ProperNames (lexemes ++ rest)) :
    ProperNames lexemes := fun l hl => h l (List.mem_append_left _ hl)

theorem ProperNames.right {lexemes rest : List Lexeme} (h : ProperNames (lexemes ++ rest)) :
    ProperNames rest := fun l hl => h l (List.mem_append_right _ hl)

theorem ProperNames.tail {l : Lexeme} {rest : List Lexeme} (h : ProperNames (l :: rest)) :
    ProperNames rest := fun m hm => h m (List.mem_cons_of_mem _ hm)

/-! ### The positions of what the tokens spell -/

theorem SpellsParameters.spellable {lexemes : List Lexeme} {params : List Parameter}
    (h : SpellsParameters lexemes params) (hnames : ProperNames lexemes) :
    ∀ p ∈ params, Spellable p := by
  induction h with
  | one hp =>
    intro p hmem
    obtain rfl := List.mem_singleton.1 hmem
    exact ⟨_, hp, hnames⟩
  | more _ _ hlast ih =>
    intro p hmem
    rcases List.mem_append.1 hmem with hmem | hmem
    · exact ih hnames.left p hmem
    · obtain rfl := List.mem_singleton.1 hmem
      exact ⟨_, hlast, hnames.right.tail⟩

theorem SpellsGroup.spellable {lexemes : List Lexeme} {g : Group} (h : SpellsGroup lexemes g)
    (hnames : ProperNames lexemes) : ∀ p ∈ g.params, Spellable p := by
  induction h with
  | mandatory _ hparams _ =>
    cases hparams with
    | absent =>
      intro p hp
      cases hp
    | present hparams => exact hparams.spellable hnames.left.tail
  | optional _ _ ih => exact ih hnames.left

theorem SpellsGroups.spellable {lexemes : List Lexeme} {groups : List Group}
    (h : SpellsGroups lexemes groups) (hnames : ProperNames lexemes) :
    ∀ p ∈ groups.flatMap Group.params, Spellable p := by
  induction h with
  | one hg => simpa using hg.spellable hnames
  | more _ hg ih =>
    intro p hp
    rw [List.flatMap_append, List.flatMap_singleton, List.mem_append] at hp
    rcases hp with hp | hp
    · exact ih hnames.left p hp
    · exact hg.spellable hnames.right p hp

theorem SpellsGroups.groups_ne_nil {lexemes : List Lexeme} {groups : List Group}
    (h : SpellsGroups lexemes groups) : groups ≠ [] := by
  cases h <;> simp

/-! ### The tokens of a text -/

theorem intercalate_concat {separator last : String} {texts : List String} (h : texts ≠ []) :
    separator.intercalate (texts ++ [last]) = separator.intercalate texts ++ separator ++ last := by
  rw [String.intercalate_append_of_ne_nil h (List.cons_ne_nil last []), String.intercalate_singleton]

/-- The tokens of a text that starts at byte `offset`. -/
def scanText (offset : Nat) (text : String) : List Lexeme := Lexeme.scanFrom offset text.toList

theorem scanText_name {offset : Nat} {a : Lexeme} (h : Lexeme.IsName a.chars) :
    scanText offset a.text = [⟨.name, ⟨offset, offset + byteLength a.chars⟩, a.chars⟩] := by
  rw [scanText, Lexeme.text, String.toList_ofList, Lexeme.scanFrom_isName h]

theorem SpellsChoices.names_ne_nil {lexemes : List Lexeme} {names : List String}
    (h : SpellsChoices lexemes names) : names ≠ [] := by
  cases h <;> simp

/-- The tokens of a list of names are those of the list without its last name, a bar and that name. -/
theorem scanText_choices {names : List String} {a : Lexeme} (offset : Nat) (h : names ≠ [])
    (ha : Lexeme.IsName a.chars) :
    ∃ bar a' : Lexeme, scanText offset ("|".intercalate (names ++ [a.text])) =
        scanText offset ("|".intercalate names) ++ [bar, a'] ∧
      bar.kind = .pipe ∧ a'.kind = .name ∧ a'.text = a.text := by
  have htext : ("|".intercalate (names ++ [a.text])).toList =
      ("|".intercalate names).toList ++ '|' :: a.chars := by
    rw [intercalate_concat h]
    simp [Lexeme.text]
  rw [scanText, htext, Lexeme.scanFrom_append_punctuation .pipe rfl, Lexeme.scanFrom_isName ha]
  exact ⟨_, _, rfl, rfl, rfl, rfl⟩

theorem SpellsChoices.rendered {lexemes : List Lexeme} {names : List String}
    (h : SpellsChoices lexemes names) (hnames : ProperNames lexemes) (offset : Nat) :
    SpellsChoices (scanText offset ("|".intercalate names)) names := by
  induction h with
  | @one a ha =>
    have hname : Lexeme.IsName a.chars := hnames a (by simp) ha
    rw [String.intercalate_singleton, scanText_name hname]
    exact .one rfl
  | @more lexemes names bar a hchoices hbar ha ih =>
    have hname : Lexeme.IsName a.chars := hnames a (by simp) ha
    obtain ⟨bar', a', hscan, hbar', ha', htext⟩ :=
      scanText_choices offset hchoices.names_ne_nil hname
    rw [hscan, ← htext]
    exact .more (ih hnames.left) hbar' ha'

/-- The tokens of a position's text spell it. -/
theorem Spellable.rendered {p : Parameter} (h : Spellable p) (offset : Nat) :
    SpellsParameter (scanText offset p.render) p := by
  obtain ⟨lexemes, hp, hnames⟩ := h
  cases hp with
  | @plain a ha =>
    have hname : Lexeme.IsName a.chars := hnames a (by simp) ha
    rw [Parameter.render, TypeToken.render, scanText_name hname]
    exact .plain rfl
  | @bound a colon b ha hcolon hb =>
    have hname : Lexeme.IsName a.chars := hnames a (by simp) ha
    have hbound : Lexeme.IsName b.chars := hnames b (by simp) hb
    have htext : (Parameter.render ⟨.single a.text, some b.text⟩).toList =
        a.chars ++ ':' :: b.chars := by
      simp [Parameter.render, TypeToken.render, Lexeme.text]
    rw [scanText, htext, Lexeme.scanFrom_append_punctuation .colon rfl,
      Lexeme.scanFrom_isName hname, Lexeme.scanFrom_isName hbound]
    exact .bound rfl rfl rfl
  | @alternatives lexemes names bar a hchoices hbar ha =>
    have hname : Lexeme.IsName a.chars := hnames a (by simp) ha
    obtain ⟨bar', a', hscan, hbar', ha', htext⟩ :=
      scanText_choices offset hchoices.names_ne_nil hname
    rw [Parameter.render, TypeToken.render, hscan, ← htext]
    exact .alternatives (hchoices.rendered hnames.left offset) hbar' ha'

theorem spellsParameters_rendered {params : List Parameter} (h : ∀ p ∈ params, Spellable p)
    (hne : params ≠ []) (offset : Nat) :
    SpellsParameters (scanText offset (", ".intercalate (params.map Parameter.render))) params := by
  induction params using List.reverseRecOn with
  | nil => exact absurd rfl hne
  | append_singleton params p ih =>
    have hp : Spellable p := h p (by simp)
    rcases eq_or_ne params [] with rfl | hparams
    · exact .one (hp.rendered offset)
    · have htext : (", ".intercalate ((params ++ [p]).map Parameter.render)).toList =
          (", ".intercalate (params.map Parameter.render)).toList ++
            ',' :: ' ' :: p.render.toList := by
        rw [List.map_append, List.map_singleton, intercalate_concat (by simpa using hparams)]
        simp
      rw [scanText, htext, Lexeme.scanFrom_append_punctuation .comma rfl,
        Lexeme.scanFrom_blank rfl]
      exact .more (ih (fun q hq => h q (List.mem_append_left _ hq)) hparams) rfl (hp.rendered _)

theorem spellsGroup_bracketed {params : List Parameter} (h : ∀ p ∈ params, Spellable p)
    (offset : Nat) :
    SpellsGroup (scanText offset (Text.bracketed (params.map Parameter.render)))
      ⟨params, false⟩ := by
  have htext : (Text.bracketed (params.map Parameter.render)).toList =
      '[' :: (", ".intercalate (params.map Parameter.render)).toList ++ [']'] := by
    simp [Text.bracketed]
  rw [scanText, htext, Lexeme.scanFrom_append_punctuation .closeBracket rfl,
    Lexeme.scanFrom_punctuation .openBracket rfl]
  refine .mandatory rfl ?_ rfl
  rcases eq_or_ne params [] with rfl | hparams
  · exact .absent
  · exact .present (spellsParameters_rendered h hparams _)

theorem spellsGroup_rendered {g : Group} (h : ∀ p ∈ g.params, Spellable p) (offset : Nat) :
    SpellsGroup (scanText offset g.render) g := by
  obtain ⟨params, optional⟩ := g
  cases optional with
  | false => simpa [Group.render] using spellsGroup_bracketed h offset
  | true =>
    have htext : (Group.render ⟨params, true⟩).toList =
        (Text.bracketed (params.map Parameter.render)).toList ++ ['?'] := by
      simp [Group.render]
    rw [scanText, htext, Lexeme.scanFrom_append_punctuation .question rfl]
    exact .optional (spellsGroup_bracketed h offset) rfl

theorem spellsGroups_rendered {groups : List Group}
    (h : ∀ p ∈ groups.flatMap Group.params, Spellable p) (hne : groups ≠ []) (offset : Nat) :
    SpellsGroups (scanText offset (" ".intercalate (groups.map Group.render))) groups := by
  induction groups using List.reverseRecOn with
  | nil => exact absurd rfl hne
  | append_singleton groups g ih =>
    rw [List.flatMap_append, List.flatMap_singleton] at h
    have hg : ∀ p ∈ g.params, Spellable p := fun p hp => h p (List.mem_append_right _ hp)
    rcases eq_or_ne groups [] with rfl | hgroups
    · exact .one (spellsGroup_rendered hg offset)
    · have htext : (" ".intercalate ((groups ++ [g]).map Group.render)).toList =
          (" ".intercalate (groups.map Group.render)).toList ++ ' ' :: g.render.toList := by
        rw [List.map_append, List.map_singleton, intercalate_concat (by simpa using hgroups)]
        simp
      rw [scanText, htext, Lexeme.scanFrom_append_blank rfl]
      exact .more (ih (fun p hp => h p (List.mem_append_left _ hp)) hgroups)
        (spellsGroup_rendered hg _)

/-- The tokens of a signature's text spell it, when all its positions can be spelled. -/
theorem spelledBy_rendered {s : Signature} (hne : s.groups ≠ [])
    (hleft : ∀ p ∈ s.params, Spellable p)
    (hright : ∀ names, s.projection = some names → ∀ name ∈ names, Spellable (plainParameter name)) :
    s.SpelledBy (Lexeme.scan s.render.toList) := by
  obtain ⟨groups, projection⟩ := s
  have hgroups := spellsGroups_rendered hleft hne 0
  cases projection with
  | none =>
    refine ⟨none, .plain ?_, .absent⟩
    simpa [Signature.render, Lexeme.scan, scanText] using hgroups
  | some names =>
    have hnames : ∀ p ∈ names.map plainParameter, Spellable p := by
      intro p hp
      obtain ⟨name, hname, rfl⟩ := List.mem_map.1 hp
      exact hright names rfl name hname
    have hrender : (names.map plainParameter).map Parameter.render = names := by
      rw [List.map_map]
      exact List.map_id names
    have htext : (Signature.render ⟨groups, some names⟩).toList =
        (" ".intercalate (groups.map Group.render)).toList ++
          ' ' :: '>' :: ' ' :: (Text.bracketed names).toList := by
      simp [Signature.render]
    refine ⟨some [⟨names.map plainParameter, false⟩], ?_, .names (by simp)⟩
    rw [Lexeme.scan, htext, Lexeme.scanFrom_append_blank rfl,
      Lexeme.scanFrom_punctuation .projection rfl, Lexeme.scanFrom_blank rfl]
    refine .projected hgroups rfl (.one ?_)
    have hbracketed := spellsGroup_bracketed hnames
    rw [hrender] at hbracketed
    exact hbracketed _

/-- All positions of a signature that was read can be spelled, those right of `>` too. -/
theorem SpelledBy.spellable {s : Signature} {lexemes : List Lexeme} (h : s.SpelledBy lexemes)
    (hnames : ProperNames lexemes) : s.groups ≠ [] ∧ (∀ p ∈ s.params, Spellable p) ∧
      ∀ names, s.projection = some names → ∀ name ∈ names, Spellable (plainParameter name) := by
  obtain ⟨groups, projection⟩ := s
  obtain ⟨right, hsides, hprojects⟩ := h
  dsimp only at hsides hprojects
  cases hsides with
  | plain hleft =>
    refine ⟨hleft.groups_ne_nil, hleft.spellable hnames, ?_⟩
    intro names hsome
    cases hprojects
    cases hsome
  | projected hleft _ hright =>
    refine ⟨hleft.groups_ne_nil, hleft.spellable hnames.left, ?_⟩
    rintro names hsome name hname
    cases hsome
    cases hprojects with
    | names hparams =>
      refine hright.spellable hnames.right.tail _ ?_
      rw [hparams]
      exact List.mem_map_of_mem hname

theorem spellable_of_read {text : String} {s : Signature} (h : read text = .ok s) :
    ∀ p ∈ s.params, Spellable p :=
  ((spelledBy_of_read h).1.spellable (fun _ hl hname => Lexeme.isName_of_mem_scan hl hname)).2.1

/-- What is read back from the text of a signature that was read. -/
theorem read_render_of_read {text : String} {s : Signature} (h : read text = .ok s) :
    read s.render = .ok s := by
  obtain ⟨hspelled, hwell⟩ := spelledBy_of_read h
  obtain ⟨hne, hleft, hright⟩ :=
    hspelled.spellable (fun _ hl hname => Lexeme.isName_of_mem_scan hl hname)
  exact mapError_eq_ok.2 (ofLexemes_of_spelledBy (spelledBy_rendered hne hleft hright) hwell)

/-- ROUND TRIP: the text of a signature that was read is read as that signature. So reading and
showing the text again leaves it as it is, and of signatures that were read, those that are shown
alike are the same. -/
theorem read_render {text : String} {s : Signature} (h : read text = .ok s) :
    read s.render = .ok s ∧ (read s.render).map render = .ok s.render ∧
      ∀ {other : String} {t : Signature}, read other = .ok t → (s = t ↔ s.render = t.render) := by
  have hback := read_render_of_read h
  refine ⟨hback, map_eq_ok.2 ⟨s, hback, rfl⟩, ?_⟩
  intro other t ht
  constructor
  · rintro rfl
    rfl
  · intro hsame
    have hback' := read_render_of_read ht
    rw [← hsame, hback] at hback'
    exact Except.ok.inj hback'

theorem read_render_projected : ∃ s,
    read "[ a|é ,\tb]?[]?>[ ]" = .ok s ∧ s.render = "[a|é, b]? []? > []" ∧
      read "[a|é, b]? []? > []" = .ok s := by
  obtain ⟨s, hs, hrender⟩ : ∃ s, read "[ a|é ,\tb]?[]?>[ ]" = .ok s ∧
      s.render = "[a|é, b]? []? > []" := exists_ok_of_toOption (by decide +kernel)
  have hback := (read_render hs).1
  rw [hrender] at hback
  exact ⟨s, hs, hrender, hback⟩

end ShapeDispatch.Signature
