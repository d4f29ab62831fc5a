import Mathlib.Data.List.Infix
import ShapeDispatch.Signature.Token

/-!
Bytes of a text. A character stands where the characters before it end (`StandsAt`), and a span that
begins and ends between characters cuts a piece out of the text (`Span.Cuts`), which is the slice of the
span (`Span.Cuts.slice_eq`).
-/

namespace ShapeDispatch

/-- The byte lies in the span. -/
def Span.Contains (span : Span) (byte : Nat) : Prop := span.start ≤ byte ∧ byte < span.stop

/-- The character begins at this byte of a text that starts at byte `offset`. -/
def StandsAt (offset : Nat) (text : List Char) (byte : Nat) (c : Char) : Prop :=
  ∃ before behind, text = before ++ c :: behind ∧ byte = offset + byteLength before

theorem byteLength_append : ∀ chars more : List Char,
    byteLength (chars ++ more) = byteLength chars + byteLength more
  | [], more => by rw [List.nil_append, byteLength, Nat.zero_add]
  | c :: chars, more => by
    rw [List.cons_append, byteLength, byteLength, byteLength_append chars more, Nat.add_assoc]

/-- The bytes of a text are those of its UTF-8 form. -/
theorem byteLength_toList (text : String) : byteLength text.toList = text.utf8ByteSize := by
  have hchars : ∀ chars : List Char, byteLength chars = (String.ofList chars).utf8ByteSize := by
    intro chars
    induction chars with
    | nil => rfl
    | cons c chars ih =>
      rw [byteLength, String.ofList_cons, String.utf8ByteSize_append, String.utf8ByteSize_singleton,
        ih]
  rw [hchars, String.ofList_toList]

theorem byteLength_pos {chars : List Char} (h : chars ≠ []) : 0 < byteLength chars := by
  obtain ⟨c, chars, rfl⟩ := List.exists_cons_of_ne_nil h
  exact Nat.add_pos_left (Char.utf8Size_pos c) _

section
variable {c : Char} {piece rest text : List Char} {offset byte : Nat}

theorem StandsAt.append (h : StandsAt (offset + byteLength piece) rest byte c) :
    StandsAt offset (piece ++ rest) byte c := by
  obtain ⟨before, behind, rfl, rfl⟩ := h
  exact ⟨piece ++ before, behind, by simp, by rw [byteLength_append]; omega⟩

/-- A character of a text stands in its first part or in the rest. -/
theorem StandsAt.of_append (h : StandsAt offset (piece ++ rest) byte c) :
    (c ∈ piece ∧ offset ≤ byte ∧ byte < offset + byteLength piece) ∨
      StandsAt (offset + byteLength piece) rest byte c := by
  obtain ⟨before, behind, hsplit, rfl⟩ := h
  rcases List.append_eq_append_iff.1 hsplit with ⟨more, rfl, hrest⟩ | ⟨more, rfl, hmore⟩
  · refine .inr ⟨more, behind, hrest, ?_⟩
    rw [byteLength_append]
    omega
  · cases more with
    | nil => exact .inr ⟨[], behind, by simpa using hmore.symm, by simp [byteLength]⟩
    | cons d more =>
      cases hmore
      have hpos := Char.utf8Size_pos c
      refine .inl ⟨by simp, by omega, ?_⟩
      rw [byteLength_append, byteLength]
      omega

theorem StandsAt.le (h : StandsAt offset text byte c) : offset ≤ byte := by
  obtain ⟨before, _, _, rfl⟩ := h
  exact Nat.le_add_right _ _

end

section
variable {span : Span}

theorem sliceFrom_of_le_start : ∀ {before rest : List Char} {offset : Nat},
    offset + byteLength before ≤ span.start →
      sliceFrom offset span (before ++ rest) = sliceFrom (offset + byteLength before) span rest
  | [], _, _, _ => rfl
  | c :: before, rest, offset, h => by
    have hpos := Char.utf8Size_pos c
    rw [byteLength, ← Nat.add_assoc] at h ⊢
    have hbefore : ¬(span.start ≤ offset ∧ offset < span.stop) := by omega
    simp only [List.cons_append, sliceFrom, if_neg hbefore]
    exact sliceFrom_of_le_start h

theorem sliceFrom_of_within : ∀ {chars rest : List Char} {offset : Nat}, span.start ≤ offset →
    offset + byteLength chars ≤ span.stop →
      sliceFrom offset span (chars ++ rest) = chars ++ sliceFrom (offset + byteLength chars) span rest
  | [], _, _, _, _ => rfl
  | c :: chars, rest, offset, hstart, hstop => by
    have hpos := Char.utf8Size_pos c
    rw [byteLength, ← Nat.add_assoc] at hstop ⊢
    have hwithin : span.start ≤ offset ∧ offset < span.stop := by omega
    simp only [List.cons_append, sliceFrom, if_pos hwithin]
    rw [sliceFrom_of_within (by omega) hstop]

theorem sliceFrom_of_stop_le : ∀ {rest : List Char} {offset : Nat}, span.stop ≤ offset →
    sliceFrom offset span rest = []
  | [], _, _ => rfl
  | c :: rest, offset, h => by
    have hbehind : ¬(span.start ≤ offset ∧ offset < span.stop) := by omega
    simp only [sliceFrom, if_neg hbehind]
    exact sliceFrom_of_stop_le (by omega)

/-- The part of a text between two others is the slice between the bytes where it begins and ends. -/
theorem slice_append (before chars behind : List Char) :
    Span.slice ⟨byteLength before, byteLength (before ++ chars)⟩ (before ++ chars ++ behind) =
      String.ofList chars := by
  rw [Span.slice, List.append_assoc, byteLength_append, sliceFrom_of_le_start (by simp),
    sliceFrom_of_within (by simp) (by simp), sliceFrom_of_stop_le (by simp), List.append_nil]

end

/-! ### Pieces of a text -/

/-- The span begins and ends where this piece of the text does. -/
def Span.Cuts (span : Span) (text piece : List Char) : Prop :=
  ∃ before behind, text = before ++ piece ++ behind ∧
    span = ⟨byteLength before, byteLength (before ++ piece)⟩

/-- Of two beginnings of a text, the one with fewer bytes is a beginning of the other. -/
theorem prefix_of_byteLength_le {before before' text : List Char} (h : before <+: text)
    (h' : before' <+: text) (hle : byteLength before ≤ byteLength before') : before <+: before' := by
  rcases List.prefix_or_prefix_of_prefix h h' with hfront | ⟨more, rfl⟩
  · exact hfront
  · have hmore : more = [] := by
      by_contra hne
      have hpos := byteLength_pos hne
      rw [byteLength_append] at hle
      omega
    simp [hmore]

namespace Span.Cuts
variable {span other : Span} {text piece piece' : List Char}

theorem start_le_stop (h : span.Cuts text piece) : span.start ≤ span.stop := by
  obtain ⟨before, behind, _, rfl⟩ := h
  rw [byteLength_append]
  exact Nat.le_add_right _ _

theorem stop_le (h : span.Cuts text piece) : span.stop ≤ byteLength text := by
  obtain ⟨before, behind, rfl, rfl⟩ := h
  rw [byteLength_append (before ++ piece)]
  exact Nat.le_add_right _ _

theorem slice_eq (h : span.Cuts text piece) : span.slice text = String.ofList piece := by
  obtain ⟨before, behind, rfl, rfl⟩ := h
  exact slice_append before piece behind

/-- From the start of one piece to the stop of another. -/
theorem cover (h : span.Cuts text piece) (h' : other.Cuts text piece')
    (hle : span.start ≤ other.stop) : ∃ more, Span.Cuts ⟨span.start, other.stop⟩ text more := by
  obtain ⟨before, behind, htext, rfl⟩ := h
  obtain ⟨before', behind', htext', rfl⟩ := h'
  have hbefore : before <+: text := ⟨piece ++ behind, by simp [htext]⟩
  have hbefore' : before' ++ piece' <+: text := ⟨behind', htext'.symm⟩
  obtain ⟨more, hmore⟩ := prefix_of_byteLength_le hbefore hbefore' hle
  exact ⟨more, before, behind', by rw [hmore, htext'], by rw [hmore]⟩

theorem whole (text : List Char) : Span.Cuts ⟨0, byteLength text⟩ text text :=
  ⟨[], [], by simp, rfl⟩

/-- Nothing is cut out at the end of a text. -/
theorem atEnd (text : List Char) : Span.Cuts ⟨byteLength text, byteLength text⟩ text [] :=
  ⟨text, [], by simp, by simp⟩

end Span.Cuts

end ShapeDispatch
