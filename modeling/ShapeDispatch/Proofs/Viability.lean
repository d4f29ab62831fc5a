import ShapeDispatch.Proofs.Reading

/-!
Prefixes of sentences. A `Stance` is what the grammar alone remembers of the tokens so far, and
`Stance.next?` says which tokens it allows to follow. All tokens of a sentence are allowed one after the
other (`Sentence.runs`), so a token that is not allowed ends every hope of a sentence
(`not_viable_of_next?`); and what the reader has taken without a fault can always be completed
(`Progress.Behind.viable`).
-/

namespace ShapeDispatch.Signature

/-- The tokens are a sentence of the grammar. -/
def Sentence (lexemes : List Lexeme) : Prop := ∃ left right, SpellsSides lexemes left right

/-- The tokens are the beginning of a sentence of the grammar. -/
def Viable (lexemes : List Lexeme) : Prop := ∃ rest, Sentence (lexemes ++ rest)

/-- A place between two tokens, as far as it decides what may follow. -/
inductive Spot where
  | fresh | opened | separated | typed | piped | alternated | coloned | bound
  | closed (optional : Bool)
  deriving DecidableEq

namespace Spot

/-- The places behind a whole position. -/
def Complete (spot : Spot) : Prop := spot = typed ∨ spot = alternated ∨ spot = bound

/-- The places where a position may begin. -/
def Empty (spot : Spot) : Prop := spot = opened ∨ spot = separated

/-- Where a token leads to on one side of `>`. -/
def next? : Spot → TokenKind → Option Spot
  | fresh, .openBracket => some opened
  | closed _, .openBracket => some opened
  | closed false, .question => some (closed true)
  | opened, .closeBracket => some (closed false)
  | opened, .name => some typed
  | separated, .name => some typed
  | typed, .pipe => some piped
  | typed, .colon => some coloned
  | piped, .name => some alternated
  | alternated, .pipe => some piped
  | coloned, .name => some bound
  | typed, .comma => some separated
  | alternated, .comma => some separated
  | bound, .comma => some separated
  | typed, .closeBracket => some (closed false)
  | alternated, .closeBracket => some (closed false)
  | bound, .closeBracket => some (closed false)
  | _, _ => none

end Spot

/-- A place, and whether it is right of `>`. -/
structure Stance where
  right : Bool
  spot : Spot
  deriving DecidableEq

namespace Stance

/-- Where a token leads to. -/
def next? (s : Stance) (kind : TokenKind) : Option Stance :=
  match s.right, s.spot, kind with
  | false, .closed _, .projection => some ⟨true, .fresh⟩
  | _, _, _ => (s.spot.next? kind).map (Stance.mk s.right)

/-- The tokens are allowed, one after the other. -/
def Runs (s : Stance) (lexemes : List Lexeme) (s' : Stance) : Prop :=
  lexemes.foldlM (fun s l => s.next? l.kind) s = some s'

variable {s s' s'' : Stance} {lexemes rest : List Lexeme} {l : Lexeme}

theorem Runs.append (h : s.Runs lexemes s') (h' : s'.Runs rest s'') :
    s.Runs (lexemes ++ rest) s'' := by
  rw [Runs, List.foldlM_append]
  exact Option.bind_eq_some_iff.2 ⟨s', h, h'⟩

theorem runs_singleton_iff : s.Runs [l] s' ↔ s.next? l.kind = some s' := by
  simp [Runs]

/-- What is allowed behind some tokens is found at the place that they lead to. -/
theorem Runs.of_append (h : s.Runs lexemes s') (h' : s.Runs (lexemes ++ rest) s'') :
    s'.Runs rest s'' := by
  rw [Runs, List.foldlM_append] at h'
  obtain ⟨other, hother, h'⟩ := Option.bind_eq_some_iff.1 h'
  rw [Runs] at h
  rw [h] at hother
  cases hother
  exact h'

end Stance

/-! ### Sentences -/

section
variable {right : Bool} {spot : Spot} {lexemes : List Lexeme}

theorem Spot.next?_projection (spot : Spot) : spot.next? .projection = none := by
  rcases spot with _ | _ | _ | _ | _ | _ | _ | _ | optional
  case closed => cases optional <;> rfl
  all_goals rfl

/-- Behind a group another may begin, and a group without a mark may be marked. -/
theorem Spot.next?_closed {kind : TokenKind} {optional : Bool} (hopening : kind ≠ .openBracket)
    (hmark : kind = .question → optional = true) : (Spot.closed optional).next? kind = none := by
  cases kind
  case openBracket => exact absurd rfl hopening
  case question => rw [hmark rfl]; rfl
  all_goals cases optional <;> rfl

/-- A token that the side allows does not leave it. -/
theorem Stance.next?_of_spot {next : Spot} {kind : TokenKind} (h : spot.next? kind = some next) :
    (Stance.mk right spot).next? kind = some ⟨right, next⟩ := by
  have hkind : kind ≠ .projection := by
    rintro rfl
    rw [Spot.next?_projection] at h
    cases h
  unfold Stance.next?
  split
  · exact absurd rfl hkind
  · rw [h]
    rfl

/-- A token that the side does not allow is not allowed, unless it leaves the side. -/
theorem Stance.next?_eq_none {kind : TokenKind} (h : spot.next? kind = none)
    (hstay : right = true ∨ kind ≠ .projection ∨ ∀ optional, spot ≠ .closed optional) :
    (Stance.mk right spot).next? kind = none := by
  unfold Stance.next?
  split
  · next optional hright hspot =>
    dsimp only at hright hspot
    simp [hright, hspot] at hstay
  · rw [h]
    rfl

theorem runs_token {next : Spot} {l : Lexeme} {kind : TokenKind} (hl : l.kind = kind)
    (h : spot.next? kind = some next) : Stance.Runs ⟨right, spot⟩ [l] ⟨right, next⟩ := by
  rw [Stance.runs_singleton_iff, hl, Stance.next?_of_spot h]

theorem runs_choices (right : Bool) {names : List String} (h : SpellsChoices lexemes names) (hspot : spot.Empty) :
    ∃ next, (next = .typed ∨ next = .alternated) ∧ Stance.Runs ⟨right, spot⟩ lexemes ⟨right, next⟩ := by
  induction h with
  | one ha =>
    refine ⟨.typed, .inl rfl, runs_token ha ?_⟩
    rcases hspot with rfl | rfl <;> rfl
  | @more lexemes names bar a _ hbar ha ih =>
    obtain ⟨next, hnext, hruns⟩ := ih
    have hpiped : Stance.Runs ⟨right, next⟩ [bar] ⟨right, .piped⟩ := by
      refine runs_token hbar ?_
      rcases hnext with rfl | rfl <;> rfl
    have halternated : Stance.Runs ⟨right, .piped⟩ [a] ⟨right, .alternated⟩ :=
      runs_token ha rfl
    exact ⟨.alternated, .inr rfl, hruns.append (hpiped.append halternated)⟩

theorem runs_parameter (right : Bool) {p : Parameter} (h : SpellsParameter lexemes p) (hspot : spot.Empty) :
    ∃ next : Spot, next.Complete ∧ Stance.Runs ⟨right, spot⟩ lexemes ⟨right, next⟩ := by
  cases h with
  | plain ha =>
    obtain ⟨next, hnext, hruns⟩ := runs_choices right (.one ha) hspot
    exact ⟨next, hnext.imp_right .inl, hruns⟩
  | @bound a colon b ha hcolon hb =>
    have htyped : Stance.Runs ⟨right, spot⟩ [a] ⟨right, .typed⟩ := by
      refine runs_token ha ?_
      rcases hspot with rfl | rfl <;> rfl
    have hcoloned : Stance.Runs ⟨right, .typed⟩ [colon] ⟨right, .coloned⟩ :=
      runs_token hcolon rfl
    have hbound : Stance.Runs ⟨right, .coloned⟩ [b] ⟨right, .bound⟩ :=
      runs_token hb rfl
    exact ⟨.bound, .inr (.inr rfl), htyped.append (hcoloned.append hbound)⟩
  | alternatives hchoices hbar ha =>
    obtain ⟨next, hnext, hruns⟩ := runs_choices right (.more hchoices hbar ha) hspot
    exact ⟨next, hnext.imp_right .inl, hruns⟩

theorem runs_parameters (right : Bool) {params : List Parameter} (h : SpellsParameters lexemes params) :
    ∃ next : Spot, next.Complete ∧ Stance.Runs ⟨right, .opened⟩ lexemes ⟨right, next⟩ := by
  induction h with
  | one hp => exact runs_parameter right hp (.inl rfl)
  | @more lexemes last params comma p _ hcomma hp ih =>
    obtain ⟨before, hbefore, hruns⟩ := ih
    have hseparated : Stance.Runs ⟨right, before⟩ [comma] ⟨right, .separated⟩ := by
      refine runs_token hcomma ?_
      rcases hbefore with rfl | rfl | rfl <;> rfl
    obtain ⟨next, hnext, hlast⟩ := runs_parameter right hp (.inr rfl)
    exact ⟨next, hnext, hruns.append (hseparated.append hlast)⟩

/-- The places where a group may begin. -/
def Spot.Outside (spot : Spot) : Prop := spot = .fresh ∨ ∃ optional, spot = .closed optional

theorem runs_group {g : Group} (h : SpellsGroup lexemes g) (hspot : spot.Outside) :
    Stance.Runs ⟨right, spot⟩ lexemes ⟨right, .closed g.optional⟩ := by
  induction h with
  | @mandatory opening closing lexemes params hopening hparams hclosing =>
    have hopened : Stance.Runs ⟨right, spot⟩ [opening] ⟨right, .opened⟩ := by
      refine runs_token hopening ?_
      rcases hspot with rfl | ⟨optional, rfl⟩ <;> rfl
    refine hopened.append ?_
    cases hparams with
    | absent => exact runs_token hclosing rfl
    | present hparams =>
      obtain ⟨next, hnext, hruns⟩ := runs_parameters right hparams
      refine hruns.append (runs_token hclosing ?_)
      rcases hnext with rfl | rfl | rfl <;> rfl
  | optional _ hquestion ih => exact ih.append (runs_token hquestion rfl)

theorem runs_groups (right : Bool) {groups : List Group} (h : SpellsGroups lexemes groups) :
    ∃ optional, Stance.Runs ⟨right, .fresh⟩ lexemes ⟨right, .closed optional⟩ := by
  induction h with
  | one hg => exact ⟨_, runs_group hg (.inl rfl)⟩
  | more _ hg ih =>
    obtain ⟨optional, hruns⟩ := ih
    exact ⟨_, hruns.append (runs_group hg (.inr ⟨optional, rfl⟩))⟩

/-- The tokens of a sentence are allowed, and they lead behind a group. -/
theorem Sentence.runs (h : Sentence lexemes) :
    ∃ side optional, Stance.Runs ⟨false, .fresh⟩ lexemes ⟨side, .closed optional⟩ := by
  obtain ⟨left, right, hsides⟩ := h
  cases hsides with
  | plain hleft =>
    obtain ⟨optional, hruns⟩ := runs_groups false hleft
    exact ⟨false, optional, hruns⟩
  | @projected lexemes rest left right arrow hleft harrow hright =>
    obtain ⟨last, hbefore⟩ := runs_groups false hleft
    obtain ⟨optional, hbehind⟩ := runs_groups true hright
    have hpassed : Stance.Runs ⟨false, .closed last⟩ [arrow] ⟨true, .fresh⟩ := by
      rw [Stance.runs_singleton_iff, harrow]
      rfl
    exact ⟨true, optional, hbefore.append (hpassed.append hbehind)⟩

end

/-- A token that is not allowed where the tokens before it lead ends every hope of a sentence. -/
theorem not_viable_of_next? {taken : List Lexeme} {l : Lexeme} {s : Stance}
    (h : Stance.Runs ⟨false, .fresh⟩ taken s) (hl : s.next? l.kind = none) :
    ¬Viable (taken ++ [l]) := by
  rintro ⟨rest, hrest⟩
  obtain ⟨side, optional, hruns⟩ := hrest.runs
  rw [List.append_assoc] at hruns
  have hbehind := h.of_append hruns
  rw [Stance.Runs, List.singleton_append, List.foldlM_cons, hl] at hbehind
  cases hbehind

/-- Tokens that lead elsewhere than behind a group are no sentence. -/
theorem not_sentence_of_runs {taken : List Lexeme} {s : Stance}
    (h : Stance.Runs ⟨false, .fresh⟩ taken s) (hs : ∀ optional, s.spot ≠ .closed optional) :
    ¬Sentence taken := by
  intro hsentence
  obtain ⟨side, optional, hruns⟩ := hsentence.runs
  rw [Stance.Runs] at h hruns
  rw [h] at hruns
  cases hruns
  exact hs optional rfl

/-! ### The reader -/

/-- What the grammar remembers of a place inside a group. -/
def Slot.spot : Slot → Spot
  | opened => .opened
  | separated => .separated
  | typed _ => .typed
  | piped _ _ => .piped
  | alternated _ _ => .alternated
  | coloned _ => .coloned
  | bound _ _ => .bound

/-- What the grammar remembers of a place. -/
def Place.spot : Place → Spot
  | fresh => .fresh
  | inside _ _ slot => slot.spot
  | closed last => .closed last.group.optional

/-- What the grammar remembers of all that has been read. -/
def Progress.stance (p : Progress) : Stance := ⟨p.left.isSome, p.place.spot⟩

theorem Slot.spot_ne_closed (slot : Slot) (optional : Bool) : slot.spot ≠ .closed optional := by
  cases slot <;> simp [Slot.spot]

theorem Slot.complete_of_parameter? {slot : Slot} {p : Parameter} (h : slot.parameter? = some p) :
    slot.spot.Complete := by
  cases slot <;> simp [Slot.parameter?, Slot.spot, Spot.Complete] at h ⊢

theorem StepsInside.next? {start : Nat} {params : List Parameter} {slot : Slot} {l : Lexeme}
    {place : Place} (h : StepsInside start params slot l place) :
    slot.spot.next? l.kind = some place.spot := by
  cases h with
  | comma hp hkind =>
    rw [hkind]
    rcases Slot.complete_of_parameter? hp with h | h | h <;> rw [h] <;> rfl
  | close hp hkind =>
    rw [hkind]
    rcases Slot.complete_of_parameter? hp with h | h | h <;> rw [h] <;> rfl
  | begin hslot hkind =>
    rw [hkind]
    rcases hslot with rfl | rfl <;> rfl
  | closeEmpty hkind | bar hkind | colon hkind | alternative hkind | anotherBar hkind | name hkind =>
    rw [hkind]
    rfl

/-- Inside a group the reader takes every token that the grammar allows, but no alternative twice. -/
theorem stepsInside_of_next? (start : Nat) (params : List Parameter) {slot : Slot} {l : Lexeme}
    {spot : Spot} (h : slot.spot.next? l.kind = some spot) :
    (∃ place, StepsInside start params slot l place) ∨
      ∃ first chosen, slot = .piped first chosen ∧ l.kind = .name ∧ l.text ∈ chosen := by
  cases slot with
  | opened =>
    cases hkind : l.kind <;> rw [hkind] at h
    case name => exact .inl ⟨_, .begin (.inl rfl) hkind⟩
    case closeBracket => exact .inl ⟨_, .closeEmpty hkind⟩
    all_goals cases h
  | separated =>
    cases hkind : l.kind <;> rw [hkind] at h
    case name => exact .inl ⟨_, .begin (.inr rfl) hkind⟩
    all_goals cases h
  | typed first =>
    cases hkind : l.kind <;> rw [hkind] at h
    case pipe => exact .inl ⟨_, .bar hkind⟩
    case colon => exact .inl ⟨_, .colon hkind⟩
    case comma => exact .inl ⟨_, .comma rfl hkind⟩
    case closeBracket => exact .inl ⟨_, .close rfl hkind⟩
    all_goals cases h
  | piped first chosen =>
    cases hkind : l.kind <;> rw [hkind] at h
    case name =>
      by_cases hmem : l.text ∈ chosen
      · exact .inr ⟨first, chosen, rfl, rfl, hmem⟩
      · exact .inl ⟨_, .alternative hkind hmem⟩
    all_goals cases h
  | alternated first chosen =>
    cases hkind : l.kind <;> rw [hkind] at h
    case pipe => exact .inl ⟨_, .anotherBar hkind⟩
    case comma => exact .inl ⟨_, .comma rfl hkind⟩
    case closeBracket => exact .inl ⟨_, .close rfl hkind⟩
    all_goals cases h
  | coloned first =>
    cases hkind : l.kind <;> rw [hkind] at h
    case name => exact .inl ⟨_, .name hkind⟩
    all_goals cases h
  | bound first name =>
    cases hkind : l.kind <;> rw [hkind] at h
    case comma => exact .inl ⟨_, .comma rfl hkind⟩
    case closeBracket => exact .inl ⟨_, .close rfl hkind⟩
    all_goals cases h

/-- The reader takes only tokens that the grammar allows. -/
theorem Steps.next? {p p' : Progress} {l : Lexeme} (h : Steps p l p') :
    p.stance.next? l.kind = some p'.stance := by
  cases h with
  | inside hinside => exact Stance.next?_of_spot hinside.next?
  | first hkind =>
    rw [hkind]
    exact Stance.next?_of_spot rfl
  | question hkind =>
    rw [hkind]
    exact Stance.next?_of_spot rfl
  | another hkind =>
    rw [hkind]
    exact Stance.next?_of_spot rfl
  | projection hkind =>
    rw [hkind]
    rfl

/-- The tokens that the reader has taken are allowed, and they lead where it stands. -/
theorem runs_of_foldlM {source : List Char} {lexemes : List Lexeme} {p : Progress}
    (h : lexemes.foldlM (Progress.step source) Progress.start = .ok p) :
    Stance.Runs ⟨false, .fresh⟩ lexemes p.stance := by
  refine foldlM_ok_inv (fun taken p => Stance.Runs ⟨false, .fresh⟩ taken p.stance) [] ?_ ?_ h
  · rfl
  · intro taken l rest p p' _ hp hstep
    exact hp.append (Stance.runs_singleton_iff.2 (Progress.step_eq_ok_iff.1 hstep).next?)

/-! ### Completing what has been read -/

/-- The token that a character is. -/
def token (c : Char) : Lexeme :=
  ⟨(TokenKind.ofPunctuation? c).getD .name, ⟨0, c.utf8Size⟩, [c]⟩

/-- What has been taken of a position is the beginning of one, unless it is nothing. -/
theorem Slot.Behind.completes {here : List Lexeme} {slot : Slot} (h : slot.Behind here)
    (hslot : slot ≠ .opened) : ∃ rest p, SpellsParameter (here ++ rest) p := by
  cases h with
  | opened => exact absurd rfl hslot
  | separated => exact ⟨[token 'a'], _, .plain rfl⟩
  | typed hfirst => exact ⟨[], _, .plain hfirst⟩
  | piped hchoices _ hbar =>
    have hlast : (token 'a').kind = .name := rfl
    exact ⟨[token 'a'], _, by simpa using SpellsParameter.alternatives hchoices hbar hlast⟩
  | alternated hchoices _ hbar hlast =>
    exact ⟨[], _, by simpa using SpellsParameter.alternatives hchoices hbar hlast⟩
  | coloned hfirst hcolon => exact ⟨[token 'a'], _, .bound hfirst hcolon rfl⟩
  | bound hfirst hcolon hname => exact ⟨[], _, .bound hfirst hcolon hname⟩

/-- What has been taken since the last whole group is the beginning of a group, or a whole one. -/
theorem Place.Behind.completes {here : List Lexeme} {place : Place} (h : place.Behind here) :
    ∃ rest g, SpellsGroup (here ++ rest) g := by
  cases h with
  | fresh => exact ⟨[token '[', token ']'], _, .mandatory rfl .absent rfl⟩
  | @inside opening lexemes here params start slot hopening hparams _ hempty hslot =>
    by_cases hopened : slot = .opened
    · obtain ⟨rfl, rfl⟩ := hempty hopened
      subst hopened
      cases hslot
      exact ⟨[token ']'], _, .mandatory hopening .absent rfl⟩
    · obtain ⟨rest, p, hp⟩ := hslot.completes hopened
      have hclosing : (token ']').kind = .closeBracket := rfl
      have hgroup := SpellsGroup.mandatory hopening (.present (hparams.concat hp)) hclosing
      exact ⟨rest ++ [token ']'], _, by simpa using hgroup⟩
  | closed hgroup => exact ⟨[], _, by simpa using hgroup⟩

/-- What the reader has taken is the beginning of a sentence. -/
theorem Progress.Behind.viable {taken : List Lexeme} {p : Progress} (h : p.Behind taken) :
    Viable taken := by
  obtain ⟨before, done, here, rfl, hleft, hdone, _, hplace⟩ := h
  obtain ⟨rest, g, hgroup⟩ := hplace.completes
  have hgroups := hdone.concat hgroup
  generalize p.left = left at hleft
  cases hleft with
  | none => exact ⟨rest, _, _, by simpa using SpellsSides.plain hgroups⟩
  | some hbefore _ _ harrow =>
    exact ⟨rest, _, _, by simpa using SpellsSides.projected hbefore harrow hgroups⟩

end ShapeDispatch.Signature
