import Mathlib.Data.List.Chain
import Mathlib.Data.List.TakeWhile
import ShapeDispatch.Proofs.Bytes
import ShapeDispatch.Proofs.Lexing

/-!
What the tokens of a text cover. `Tokenizes` describes the tokens by longest match: in front of every
rest of the text stands the longest piece that one of the patterns matches. Every text has exactly the
tokens that are scanned (`tokenizes_iff`), and of these it is said once and for all where they stand
(`Exhausts`, `scan_exhausts`).
-/

namespace ShapeDispatch.Lexeme

/-! ### Longest match -/

/-- A pattern matches these characters: the one of blanks, or the one of a kind of token. -/
inductive Matches : Option TokenKind → List Char → Prop where
  | blanks {chars : List Char} : chars ≠ [] → (∀ c ∈ chars, isBlank c = true) → Matches none chars
  | punctuation {c : Char} {kind : TokenKind} : TokenKind.ofPunctuation? c = some kind →
      Matches (some kind) [c]
  | name {chars : List Char} : IsName chars → Matches (some .name) chars

/-- The pattern matches these characters in front of the rest, and no pattern matches more. -/
structure Longest (pattern : Option TokenKind) (chars rest : List Char) : Prop where
  found : Matches pattern chars
  longest : ∀ other more, Matches other more → more <+: chars ++ rest → more.length ≤ chars.length

/-- The tokens of a text that starts at byte `offset`, by longest match. -/
inductive Tokenizes : Nat → List Char → List Lexeme → Prop where
  | done {offset : Nat} : Tokenizes offset [] []
  | skip {offset : Nat} {blanks rest : List Char} {lexemes : List Lexeme} :
    Longest none blanks rest → Tokenizes (offset + byteLength blanks) rest lexemes →
      Tokenizes offset (blanks ++ rest) lexemes
  | token {offset : Nat} {kind : TokenKind} {chars rest : List Char} {lexemes : List Lexeme} :
    Longest (some kind) chars rest → Tokenizes (offset + byteLength chars) rest lexemes →
      Tokenizes offset (chars ++ rest)
        (⟨kind, ⟨offset, offset + byteLength chars⟩, chars⟩ :: lexemes)

section
variable {p : Char → Prop} {c : Char} {chars run rest text blanks : List Char} {kind : TokenKind}
  {pattern : Option TokenKind} {offset : Nat} {lexemes : List Lexeme}

/-- What is in front of a text has no more characters of a sort than the run of them there. -/
theorem length_le_of_front (h : chars <+: run ++ rest) (hchars : ∀ c ∈ chars, p c)
    (hstop : ∀ c ∈ rest.head?, ¬p c) : chars.length ≤ run.length := by
  by_contra hlt
  obtain ⟨more, rfl⟩ := List.prefix_of_prefix_length_le (List.prefix_append run rest) h (by omega)
  have hmore := (List.prefix_append_right_inj run).1 h
  cases more with
  | nil => simp at hlt
  | cons c more =>
    obtain ⟨rest, rfl⟩ := hmore
    exact hstop c (by simp) (hchars c (by simp))

/-- Nothing that is in front of a text has characters of a sort that its first one is not of. -/
theorem length_le_zero_of_front (h : chars <+: rest) (hchars : ∀ c ∈ chars, p c)
    (hstop : ∀ c ∈ rest.head?, ¬p c) : chars.length ≤ 0 := by
  have hnone : chars <+: [] ++ rest := h
  simpa using length_le_of_front hnone hchars hstop

theorem longest_blanks (hne : blanks ≠ []) (hblanks : ∀ c ∈ blanks, isBlank c = true)
    (hstop : ∀ c ∈ rest.head?, isBlank c = false) : Longest none blanks rest where
  found := .blanks hne hblanks
  longest := by
    intro other more hmore hfront
    cases hmore with
    | blanks _ hall => exact length_le_of_front hfront hall (by simpa using hstop)
    | punctuation => exact List.length_pos_of_ne_nil hne
    | name hname =>
      obtain ⟨c, blanks, rfl⟩ := List.exists_cons_of_ne_nil hne
      have hfirst : ¬IsNameChar c := by simp [IsNameChar, hblanks c]
      exact (length_le_zero_of_front hfront hname.2 (by simpa using hfirst)).trans (Nat.zero_le _)

theorem longest_punctuation (h : TokenKind.ofPunctuation? c = some kind) (rest : List Char) :
    Longest (some kind) [c] rest where
  found := .punctuation h
  longest := by
    intro other more hmore hfront
    cases hmore with
    | blanks _ hall =>
      have hfirst : ¬isBlank c = true := by simp [isBlank_eq_false h]
      exact (length_le_zero_of_front hfront hall (by simpa using hfirst)).trans (Nat.zero_le _)
    | punctuation => exact Nat.le_refl _
    | name hname =>
      have hfirst : ¬IsNameChar c := by simp [IsNameChar, h]
      exact (length_le_zero_of_front hfront hname.2 (by simpa using hfirst)).trans (Nat.zero_le _)

theorem longest_name (h : IsName chars) (hstop : ∀ c ∈ rest.head?, ¬IsNameChar c) :
    Longest (some .name) chars rest where
  found := .name h
  longest := by
    intro other more hmore hfront
    cases hmore with
    | blanks _ hall =>
      obtain ⟨c, chars, rfl⟩ := List.exists_cons_of_ne_nil h.1
      have hfirst : ¬isBlank c = true := by simp [(h.2 c (by simp)).1]
      exact (length_le_zero_of_front hfront hall (by simpa using hfirst)).trans (Nat.zero_le _)
    | punctuation => exact List.length_pos_of_ne_nil h.1
    | name hname => exact length_le_of_front hfront hname.2 hstop

/-- A name that is the longest match ends where no character of a name follows. -/
theorem Longest.stop_of_isName (h : Longest (some kind) chars rest) (hname : IsName chars) :
    ∀ c ∈ rest.head?, ¬IsNameChar c := by
  intro c hc hchar
  obtain ⟨rest, rfl⟩ := List.head?_eq_some_iff.1 hc
  have hmore : Matches (some .name) (chars ++ [c]) := by
    refine .name ⟨by simp, fun d hd => ?_⟩
    rcases List.mem_append.1 hd with hd | hd
    · exact hname.2 d hd
    · rwa [List.mem_singleton.1 hd]
  have hle := h.longest _ _ hmore ⟨rest, by simp⟩
  rw [List.length_append, List.length_singleton] at hle
  omega

theorem Matches.isBlank_eq_false (h : Matches (some kind) chars) : ∀ c ∈ chars, isBlank c = false := by
  cases h with
  | punctuation hkind => simpa using Lexeme.isBlank_eq_false hkind
  | name hname => exact fun c hc => (hname.2 c hc).1

theorem Matches.isName (h : Matches (some .name) chars) : IsName chars := by
  generalize hname : some TokenKind.name = pattern at h
  cases h with
  | blanks => cases hname
  | punctuation hkind =>
    cases hname
    exact absurd rfl (kind_ne_name hkind)
  | name hname => exact hname

/-! ### Every text has its tokens -/

theorem scanFrom_blanks : ∀ {blanks : List Char} {offset : Nat}, (∀ c ∈ blanks, isBlank c = true) →
    scanFrom offset (blanks ++ rest) = scanFrom (offset + byteLength blanks) rest
  | [], _, _ => rfl
  | c :: blanks, offset, h => by
    obtain ⟨hc, h⟩ := List.forall_mem_cons.1 h
    rw [List.cons_append, scanFrom_blank hc, scanFrom_blanks h, byteLength, Nat.add_assoc]

/-- A name is one token in front of anything that no name begins with. -/
theorem scanFrom_name_append (h : IsName chars) (hstop : ∀ c ∈ rest.head?, ¬IsNameChar c) :
    scanFrom offset (chars ++ rest) = ⟨.name, ⟨offset, offset + byteLength chars⟩, chars⟩ ::
      scanFrom (offset + byteLength chars) rest := by
  cases rest with
  | nil => rw [List.append_nil, scanFrom_isName h, scanFrom]
  | cons c rest => rw [scanFrom_append (hstop c rfl), scanFrom_isName h, List.singleton_append]

theorem Tokenizes.eq_scanFrom {text : List Char} (h : Tokenizes offset text lexemes) :
    lexemes = scanFrom offset text := by
  induction h with
  | done => rfl
  | skip hlongest _ ih =>
    cases hlongest.found with
    | blanks _ hall => rw [scanFrom_blanks hall, ih]
  | token hlongest _ ih =>
    cases hlongest.found with
    | punctuation hkind => rw [List.singleton_append, scanFrom_punctuation _ hkind, ih]; rfl
    | name hname => rw [scanFrom_name_append hname (hlongest.stop_of_isName hname), ih]

/-- A text that begins with a character of a sort begins with a run of them. -/
theorem exists_run (p : Char → Bool) (hc : p c = true) (text : List Char) : ∃ run rest,
    c :: text = run ++ rest ∧ run ≠ [] ∧ (∀ d ∈ run, p d = true) ∧ ∀ d ∈ rest.head?, p d = false := by
  refine ⟨(c :: text).takeWhile p, (c :: text).dropWhile p, List.takeWhile_append_dropWhile.symm, ?_,
    fun d hd => List.mem_takeWhile_imp hd, ?_⟩
  · simp [hc]
  · intro d hd
    have hstop := List.head?_dropWhile_not p (c :: text)
    rw [hd] at hstop
    exact hstop

theorem length_le_of_run (hsplit : c :: text = run ++ rest) (hne : run ≠ []) :
    rest.length ≤ text.length := by
  have hpos := List.length_pos_of_ne_nil hne
  have hlength := congrArg List.length hsplit
  rw [List.length_cons, List.length_append] at hlength
  omega

instance : DecidablePred IsNameChar := fun c =>
  inferInstanceAs (Decidable (isBlank c = false ∧ TokenKind.ofPunctuation? c = none))

theorem exists_tokenizes : ∀ (text : List Char) (offset : Nat), ∃ lexemes, Tokenizes offset text lexemes
  | [], _ => ⟨[], .done⟩
  | c :: text, offset => by
    rcases char_cases c with hblank | ⟨kind, hkind⟩ | hname
    · obtain ⟨run, rest, hsplit, hne, hrun, hstop⟩ := exists_run isBlank hblank text
      have hshorter : rest.length ≤ text.length := length_le_of_run hsplit hne
      obtain ⟨lexemes, h⟩ := exists_tokenizes rest (offset + byteLength run)
      rw [hsplit]
      exact ⟨lexemes, .skip (longest_blanks hne hrun hstop) h⟩
    · obtain ⟨lexemes, h⟩ := exists_tokenizes text (offset + byteLength [c])
      exact ⟨_, .token (longest_punctuation hkind text) h⟩
    · obtain ⟨run, rest, hsplit, hne, hrun, hstop⟩ :=
        exists_run (fun d => decide (IsNameChar d)) (by simpa using hname) text
      have hshorter : rest.length ≤ text.length := length_le_of_run hsplit hne
      obtain ⟨lexemes, h⟩ := exists_tokenizes rest (offset + byteLength run)
      have hlongest : Longest (some .name) run rest :=
        longest_name ⟨hne, by simpa using hrun⟩ (by simpa using hstop)
      rw [hsplit]
      exact ⟨_, .token hlongest h⟩
termination_by text => text.length

/-- Every text has exactly the tokens that are scanned. -/
theorem tokenizes_iff {text : List Char} :
    Tokenizes offset text lexemes ↔ lexemes = scanFrom offset text := by
  constructor
  · exact Tokenizes.eq_scanFrom
  · rintro rfl
    obtain ⟨lexemes, h⟩ := exists_tokenizes text offset
    exact h.eq_scanFrom ▸ h

end

/-! ### What the tokens cover -/

section
variable {c : Char} {piece rest text : List Char} {offset byte : Nat} {lexemes : List Lexeme}

/-- What a token of a kind covers between two parts of a text: the character that is such a token, or
a name with all its characters. -/
inductive Covers (before behind : List Char) : TokenKind → List Char → Prop where
  | punctuation {c : Char} {kind : TokenKind} : TokenKind.ofPunctuation? c = some kind →
      Covers before behind kind [c]
  | name {chars : List Char} : IsName chars → (∀ c ∈ before.getLast?, ¬IsNameChar c) →
      (∀ c ∈ behind.head?, ¬IsNameChar c) → Covers before behind .name chars

theorem Covers.isName {before behind chars : List Char} (h : Covers before behind .name chars) :
    IsName chars := by
  generalize hkind : TokenKind.name = kind at h
  cases h with
  | punctuation hpunctuation => exact absurd hkind.symm (kind_ne_name hpunctuation)
  | name hname _ _ => exact hname

/-- The token stands between two parts of a text that starts at byte `offset`. -/
structure Between (offset : Nat) (before behind : List Char) (l : Lexeme) : Prop where
  span_eq : l.span = ⟨offset + byteLength before, offset + byteLength (before ++ l.chars)⟩
  covers : Covers before behind l.kind l.chars

/-- What a token covers does not depend on what comes earlier, unless a name would be broken off. -/
theorem Covers.append {before behind chars : List Char} {kind : TokenKind}
    (h : Covers before behind kind chars)
    (hpiece : before = [] → kind = .name → ∀ c ∈ piece.getLast?, ¬IsNameChar c) :
    Covers (piece ++ before) behind kind chars := by
  cases h with
  | punctuation hkind => exact .punctuation hkind
  | name hname hbefore hbehind =>
    refine .name hname ?_ hbehind
    rw [List.getLast?_append]
    cases hlast : before.getLast? with
    | none => simpa using hpiece (List.getLast?_eq_none_iff.1 hlast) rfl
    | some d => simpa [hlast] using hbefore

theorem Between.append {before behind : List Char} {l : Lexeme}
    (h : Between (offset + byteLength piece) before behind l)
    (hpiece : before = [] → l.kind = .name → ∀ c ∈ piece.getLast?, ¬IsNameChar c) :
    Between offset (piece ++ before) behind l := by
  refine ⟨?_, h.covers.append hpiece⟩
  rw [h.span_eq]
  simp only [byteLength_append, Nat.add_assoc]

/-- If both tokens are names, a blank stands between them. -/
def Separated (offset : Nat) (text : List Char) (a b : Lexeme) : Prop :=
  a.kind = .name → b.kind = .name → ∃ byte c, StandsAt offset text byte c ∧ isBlank c = true ∧
    a.span.stop ≤ byte ∧ byte < b.span.start

theorem Separated.append {a b : Lexeme} (h : Separated (offset + byteLength piece) rest a b) :
    Separated offset (piece ++ rest) a b := by
  intro ha hb
  obtain ⟨byte, c, hc, hblank, hbetween⟩ := h ha hb
  exact ⟨byte, c, hc.append, hblank, hbetween⟩

namespace Tokenizes

theorem le_start (h : Tokenizes offset text lexemes) : ∀ l ∈ lexemes, offset ≤ l.span.start := by
  intro l hl
  rw [h.eq_scanFrom] at hl
  exact le_start_of_mem_scanFrom hl

/-- Each token stands somewhere in the text. -/
theorem between (h : Tokenizes offset text lexemes) : ∀ l ∈ lexemes, ∃ before behind,
    text = before ++ l.chars ++ behind ∧ Between offset before behind l := by
  induction h with
  | done => simp
  | @skip offset blanks rest lexemes hlongest _ ih =>
    intro l hl
    obtain ⟨before, behind, rfl, hbetween⟩ := ih l hl
    refine ⟨blanks ++ before, behind, by simp, hbetween.append (fun _ _ c hc hname => ?_)⟩
    cases hlongest.found with
    | blanks _ hall => exact absurd (hall c (List.mem_of_getLast? hc)) (by simp [hname.1])
  | @token offset kind chars rest lexemes hlongest _ ih =>
    intro l hl
    rcases List.mem_cons.1 hl with rfl | hl
    · refine ⟨[], rest, by simp, by simp [byteLength], ?_⟩
      cases hlongest.found with
      | punctuation hkind => exact .punctuation hkind
      | name hname => exact .name hname (by simp) (hlongest.stop_of_isName hname)
    · obtain ⟨before, behind, rfl, hbetween⟩ := ih l hl
      refine ⟨chars ++ before, behind, by simp, hbetween.append (fun hbefore hisName c hc hchar => ?_)⟩
      cases hlongest.found with
      | punctuation hkind =>
        obtain rfl : c = _ := by simpa using hc.symm
        simp [IsNameChar, hkind] at hchar
      | name hname =>
        -- the token would begin right where this name ends
        have hcovers := hbetween.covers
        rw [hisName] at hcovers
        obtain ⟨first, more, hl⟩ := List.exists_cons_of_ne_nil (hcovers.isName).1
        refine hlongest.stop_of_isName hname first (by simp [hbefore, hl]) ?_
        exact hcovers.isName.2 first (by simp [hl])

/-- The tokens follow each other. -/
theorem pairwise (h : Tokenizes offset text lexemes) :
    lexemes.Pairwise (fun a b => a.span.stop ≤ b.span.start) := by
  induction h with
  | done => exact .nil
  | skip _ _ ih => exact ih
  | token _ hrest ih => exact List.pairwise_cons.2 ⟨hrest.le_start, ih⟩

/-- Between names that follow each other there is a blank. -/
theorem isChain_separated (h : Tokenizes offset text lexemes) :
    lexemes.IsChain (Separated offset text) := by
  induction h with
  | done => exact .nil
  | skip _ _ ih => exact ih.imp (fun _ _ h => h.append)
  | @token offset kind chars rest lexemes hlongest hrest ih =>
    refine List.isChain_cons.2 ⟨fun b hb hname hname' => ?_, ih.imp (fun _ _ h => h.append)⟩
    obtain rfl : kind = .name := hname
    have hstop := hlongest.stop_of_isName hlongest.found.isName
    cases hrest with
    | done => cases hb
    | @skip _ blanks rest _ hblanks hrest =>
      cases hblanks.found with
      | blanks hne hall =>
        obtain ⟨c, blanks, rfl⟩ := List.exists_cons_of_ne_nil hne
        have hstart := hrest.le_start b (List.mem_of_mem_head? hb)
        have hpos := byteLength_pos hne
        have hc : StandsAt (offset + byteLength chars) (c :: blanks ++ rest)
            (offset + byteLength chars) c := ⟨[], blanks ++ rest, rfl, rfl⟩
        exact ⟨_, c, hc.append, hall c (List.mem_cons_self ..), Nat.le_refl _, by omega⟩
    | @token _ kind' more rest _ hmore hrest =>
      -- the second name would begin right where the first one ends
      cases hb
      obtain rfl : kind' = .name := hname'
      obtain ⟨hne, hall⟩ := hmore.found.isName
      obtain ⟨c, more, rfl⟩ := List.exists_cons_of_ne_nil hne
      exact absurd (hall c (List.mem_cons_self ..)) (hstop c rfl)

/-- The blanks are what no token covers. -/
theorem isBlank_iff (h : Tokenizes offset text lexemes) (hc : StandsAt offset text byte c) :
    isBlank c = true ↔ ∀ l ∈ lexemes, ¬l.span.Contains byte := by
  induction h with
  | done =>
    obtain ⟨before, behind, hnil, _⟩ := hc
    simp at hnil
  | @skip offset blanks rest lexemes hlongest hrest ih =>
    rcases hc.of_append with ⟨hmem, _, hlt⟩ | hc
    · cases hlongest.found with
      | blanks _ hall =>
        refine iff_of_true (hall c hmem) (fun l hl hcontains => ?_)
        have hstart := hrest.le_start l hl
        have hcontains := hcontains.1
        omega
    · exact ih hc
  | @token offset kind chars rest lexemes hlongest hrest ih =>
    rcases hc.of_append with ⟨hmem, hle, hlt⟩ | hc
    · have hc := hlongest.found.isBlank_eq_false c hmem
      refine iff_of_false (by simp [hc]) (fun hnone => ?_)
      exact hnone _ (List.mem_cons_self ..) ⟨hle, hlt⟩
    · have hapart : ¬Span.Contains ⟨offset, offset + byteLength chars⟩ byte := by
        rintro ⟨_, hlt⟩
        exact absurd hc.le (Nat.not_le.2 hlt)
      rw [ih hc, List.forall_mem_cons]
      exact ⟨fun hnone => ⟨hapart, hnone⟩, fun hnone => hnone.2⟩

/-- The tokens together are the text without its blanks. -/
theorem flatMap_chars (h : Tokenizes offset text lexemes) :
    lexemes.flatMap chars = text.filter (fun c => !isBlank c) := by
  induction h with
  | done => rfl
  | skip hlongest _ ih =>
    cases hlongest.found with
    | blanks _ hall =>
      have hnone : List.filter (fun c => !isBlank c) _ = [] :=
        List.filter_eq_nil_iff.2 (by simpa using hall)
      rw [List.filter_append, hnone, List.nil_append, ih]
  | token hlongest _ ih =>
    have hall : List.filter (fun c => !isBlank c) _ = _ :=
      List.filter_eq_self.2 (by simpa using hlongest.found.isBlank_eq_false)
    rw [List.flatMap_cons, List.filter_append, hall, ih]

end Tokenizes

theorem Covers.ne_nil {before behind chars : List Char} {kind : TokenKind}
    (h : Covers before behind kind chars) : chars ≠ [] := by
  cases h with
  | punctuation => exact List.cons_ne_nil _ _
  | name hname => exact hname.1

end

/-- The tokens cover the text. -/
structure Exhausts (text : List Char) (lexemes : List Lexeme) : Prop where
  /-- Each token stands between two parts of the text, so it begins and ends between characters. -/
  between : ∀ l ∈ lexemes, ∃ before behind, text = before ++ l.chars ++ behind ∧
    Between 0 before behind l
  nonempty : ∀ l ∈ lexemes, l.span.start < l.span.stop
  /-- Each token ends where the next begins or before. -/
  ordered : lexemes.Pairwise (fun a b => a.span.stop ≤ b.span.start)
  isBlank_iff : ∀ byte c, StandsAt 0 text byte c →
    (isBlank c = true ↔ ∀ l ∈ lexemes, ¬l.span.Contains byte)
  separated : lexemes.IsChain (Separated 0 text)
  slice_eq : ∀ l ∈ lexemes, l.span.slice text = l.text
  flatMap_chars : lexemes.flatMap chars = text.filter (fun c => !isBlank c)

/-- A token cuts its characters out of the text. -/
theorem cuts_of_mem_scan {text : List Char} {l : Lexeme} (h : l ∈ scan text) :
    l.span.Cuts text l.chars := by
  obtain ⟨before, behind, hsplit, hbetween⟩ := (tokenizes_iff.2 rfl).between l h
  exact ⟨before, behind, hsplit, by rw [hbetween.span_eq, Nat.zero_add, Nat.zero_add]⟩

theorem Between.start_lt_stop {offset : Nat} {before behind : List Char} {l : Lexeme}
    (h : Between offset before behind l) : l.span.start < l.span.stop := by
  have hpos := byteLength_pos h.covers.ne_nil
  rw [h.span_eq, byteLength_append]
  dsimp only
  omega

/-- COVERAGE: every text has its tokens, and only those, by longest match. They stand in the text one
behind the other, none is empty, the blanks are exactly what none of them covers, a token of one
character covers it, a name reaches as far as it can on both sides, so that a blank stands between names
that follow each other, and together they are the text without its blanks. -/
theorem scan_exhausts (text : String) :
    (∀ lexemes, Tokenizes 0 text.toList lexemes ↔ lexemes = scan text.toList) ∧
      Exhausts text.toList (scan text.toList) := by
  have htokens : Tokenizes 0 text.toList (scan text.toList) := tokenizes_iff.2 rfl
  refine ⟨fun lexemes => tokenizes_iff, htokens.between, ?_, htokens.pairwise, ?_,
    htokens.isChain_separated, fun l hl => (cuts_of_mem_scan hl).slice_eq, htokens.flatMap_chars⟩
  · intro l hl
    obtain ⟨before, behind, _, hbetween⟩ := htokens.between l hl
    exact hbetween.start_lt_stop
  · intro byte c hc
    exact htokens.isBlank_iff hc

end ShapeDispatch.Lexeme
