import ShapeDispatch.Proofs.Coverage
import ShapeDispatch.Proofs.Rejecting

/-!
Where a fault points. Every fault of the reader lies between characters of the text and quotes exactly
what stands there. An unexpected token is the first that no sentence of the grammar goes on with, and an
unexpected end is one that some sentence goes on behind (`Pinpoints`, `read_pinpoints`).
-/

namespace ShapeDispatch

/-- The text that a fault quotes. -/
def FaultKind.quoted? : FaultKind → Option String
  | unexpected found _ => some found
  | boundAlternation text => some text
  | duplicateAlternative token => some token
  | _ => none

namespace Signature

/-! ### Spans in the text -/

section
variable {text : List Char} {before here behind : List Lexeme} {first l : Lexeme} {span : Span}

/-- From a token to a later one, or the same. -/
theorem exists_cuts_of_scan (hscan : Lexeme.scan text = before ++ l :: behind)
    (hfirst : first ∈ before ∨ first = l) :
    ∃ piece, Span.Cuts ⟨first.span.start, l.span.stop⟩ text piece := by
  have hl : l ∈ Lexeme.scan text := by simp [hscan]
  have hmem : first ∈ Lexeme.scan text := by
    rw [hscan]
    rcases hfirst with hfirst | rfl
    · exact List.mem_append_left _ hfirst
    · simp
  have hcuts := Lexeme.cuts_of_mem_scan hl
  have hcutsFirst := Lexeme.cuts_of_mem_scan hmem
  refine hcutsFirst.cover hcuts ?_
  rcases hfirst with hfirst | rfl
  · have hordered : (Lexeme.scan text).Pairwise (fun a b => a.span.stop ≤ b.span.start) :=
      (Lexeme.tokenizes_iff.2 rfl).pairwise
    rw [hscan, List.pairwise_append] at hordered
    have hle : first.span.stop ≤ l.span.start := hordered.2.2 first hfirst l (List.mem_cons_self ..)
    exact hcutsFirst.start_le_stop.trans (hle.trans hcuts.start_le_stop)
  · exact hcuts.start_le_stop

theorem Spans.exists_cuts (h : Spans here span) (hscan : Lexeme.scan text = before ++ here ++ behind) :
    ∃ piece, span.Cuts text piece := by
  obtain ⟨first, hfirst, last, hlast, rfl⟩ := h
  obtain ⟨here, rfl⟩ := List.getLast?_eq_some_iff.1 hlast
  have hlast : Lexeme.scan text = (before ++ here) ++ last :: behind := by simpa using hscan
  refine exists_cuts_of_scan hlast ?_
  have hmem := List.mem_of_head? hfirst
  simpa [or_assoc] using Or.inr hmem

end

/-! ### What a fault says -/

/-- The fault lies between characters of the text, and what it says of them is so. -/
structure Pinpoints (text : List Char) (fault : Fault) : Prop where
  within : ∃ piece, fault.span.Cuts text piece
  quoted : ∀ quoted, fault.kind.quoted? = some quoted → fault.span.Cuts text quoted.toList
  unexpected : ∀ found expected, fault.kind = .unexpected found expected →
    ∃ before l behind, Lexeme.scan text = before ++ l :: behind ∧ l.span = fault.span ∧
      l.text = found ∧ Viable before ∧ ¬Viable (before ++ [l])
  unexpectedEnd : ∀ expected, fault.kind = .unexpectedEnd expected →
    Viable (Lexeme.scan text) ∧ ¬Sentence (Lexeme.scan text)
  misplaced : fault.kind = .mandatoryAfterOptional →
    ∃ before here behind, Lexeme.scan text = before ++ here ++ behind ∧
      FirstMisplaced before here behind ∧ Spans here fault.span

section
variable {text : List Char} {taken more behind : List Lexeme} {p : Progress} {l : Lexeme}
  {last : WrittenGroup} {fault : Fault}

theorem pinpoints_of_rejectsSide (hscan : Lexeme.scan text = taken ++ more)
    (hp : p.Located taken) (hplace : p.place = .closed last)
    (hmark : ∀ l ∈ more.head?, l.kind = .question → last.group.optional = true)
    (h : RejectsSide p.left (p.groups ++ [last]) fault) : Pinpoints text fault := by
  cases h with
  | misplaced hleft hw =>
    obtain ⟨before, here, behind, hsplit, hfirst, hspan⟩ := hp.firstMisplaced hplace hleft hw hmark
    rw [← hscan] at hsplit
    exact ⟨hspan.exists_cuts hsplit, nofun, nofun, nofun,
      fun _ => ⟨before, here, behind, hsplit, hfirst, hspan⟩⟩
  | projection hw =>
    obtain ⟨before, lexemes, rfl, _, hwritten⟩ := hp.written hplace
    obtain ⟨front, rear, hsplit⟩ := List.append_of_mem hw
    rw [hsplit] at hwritten
    obtain ⟨start, here, rest, rfl, _, _, hspan, _, _⟩ := hwritten.split
    have hhere : Lexeme.scan text = (before ++ start) ++ here ++ (rest ++ more) := by simp [hscan]
    exact ⟨hspan.exists_cuts hhere, nofun, nofun, nofun, nofun⟩

theorem pinpoints_of_rejects (hscan : Lexeme.scan text = taken ++ l :: behind)
    (hp : taken.foldlM (Progress.step text) Progress.start = .ok p) (h : Rejects text p l fault) :
    Pinpoints text fault := by
  have hl : l ∈ Lexeme.scan text := by simp [hscan]
  have hcuts : l.span.Cuts text l.text.toList := by
    simpa [Lexeme.text] using Lexeme.cuts_of_mem_scan hl
  cases h with
  | unexpected hnext =>
    refine ⟨⟨_, hcuts⟩, ?_, ?_, nofun, nofun⟩
    · rintro quoted ⟨⟩
      exact hcuts
    · rintro found expected ⟨⟩
      exact ⟨taken, l, behind, hscan, rfl, rfl, (Progress.behind_foldlM hp).viable,
        not_viable_of_next? (runs_of_foldlM hp) hnext⟩
  | duplicate =>
    refine ⟨⟨_, hcuts⟩, ?_, nofun, nofun, nofun⟩
    rintro quoted ⟨⟩
    exact hcuts
  | @boundAlternation start params slot first span hplace hfirst hspan =>
    have htaken := (Progress.located_foldlM hp).first_mem hplace hfirst
    obtain ⟨piece, hpiece⟩ := exists_cuts_of_scan hscan (.inl htaken)
    rw [← hspan] at hpiece
    refine ⟨⟨piece, hpiece⟩, ?_, nofun, nofun, nofun⟩
    rintro quoted ⟨⟩
    simpa [hpiece.slice_eq] using hpiece
  | side hplace hmark hside =>
    refine pinpoints_of_rejectsSide hscan (Progress.located_foldlM hp) hplace ?_ hside
    rintro l ⟨⟩
    exact hmark

theorem pinpoints_of_refuses
    (hp : (Lexeme.scan text).foldlM (Progress.step text) Progress.start = .ok p)
    (h : Refuses text p fault) : Pinpoints text fault := by
  cases h with
  | unfinished hspot =>
    refine ⟨⟨_, .atEnd text⟩, nofun, nofun, ?_, nofun⟩
    rintro expected ⟨⟩
    exact ⟨(Progress.behind_foldlM hp).viable, not_sentence_of_runs (runs_of_foldlM hp) hspot⟩
  | side hplace hside =>
    exact pinpoints_of_rejectsSide (List.append_nil _).symm (Progress.located_foldlM hp) hplace
      (by simp) hside
  | mixed => exact ⟨⟨_, .whole text⟩, nofun, nofun, nofun, nofun⟩

end

/-- FAULTS: a text that cannot be read is reported with a span that lies in it, begins and ends between
characters and cuts out what the report quotes. Up to an unexpected token the tokens are the beginning
of a sentence of the grammar, and with it they are not; at an unexpected end they are such a beginning
but no sentence; and a misplaced group is the first mandatory one behind an optional one. The sentences
are those of the rules alone, without the conditions on top of them. -/
theorem read_pinpoints {text : String} {e : SignatureError} (h : read text = .error e) :
    e.signature = text ∧ e.fault.span.start ≤ e.fault.span.stop ∧
      e.fault.span.stop ≤ text.utf8ByteSize ∧ Pinpoints text.toList e.fault := by
  obtain ⟨fault, hfault, rfl⟩ := mapError_eq_error.1 h
  have hpinpoints : Pinpoints text.toList fault := by
    rcases ofLexemes_eq_error hfault with
      rfl | ⟨before, l, behind, p, hsplit, hp, hrejects⟩ | ⟨p, hp, hrefuses⟩
    · exact ⟨⟨[], [], text.toList, rfl, rfl⟩, nofun, nofun, nofun, nofun⟩
    · exact pinpoints_of_rejects hsplit hp hrejects
    · exact pinpoints_of_refuses hp hrefuses
  obtain ⟨piece, hcuts⟩ := hpinpoints.within
  exact ⟨rfl, hcuts.start_le_stop, byteLength_toList text ▸ hcuts.stop_le, hpinpoints⟩

/-- Behind two names of two bytes each, `>` comes before the group is closed. -/
theorem read_pinpoints_unclosed : ∃ e before l behind, read "[é, ü > [x]" = .error e ∧
    e.fault = ⟨⟨8, 9⟩, .unexpected ">" .nextOrClose⟩ ∧
    Lexeme.scan "[é, ü > [x]".toList = before ++ l :: behind ∧ l.span = ⟨8, 9⟩ ∧ l.text = ">" ∧
    Viable before ∧ ¬Viable (before ++ [l]) := by
  have hread : read "[é, ü > [x]" =
      .error ⟨"[é, ü > [x]", ⟨⟨8, 9⟩, .unexpected ">" .nextOrClose⟩⟩ :=
    failure?_eq_some.1 (by decide +kernel)
  obtain ⟨before, l, behind, hsplit, hspan, htext, hviable, hdead⟩ :=
    (read_pinpoints hread).2.2.2.unexpected ">" .nextOrClose rfl
  exact ⟨_, before, l, behind, hread, rfl, hsplit, hspan, htext, hviable, hdead⟩

end Signature

end ShapeDispatch
