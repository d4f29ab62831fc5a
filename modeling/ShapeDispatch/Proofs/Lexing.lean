import Mathlib.Data.List.Basic
import ShapeDispatch.Signature.Token

/-!
Scanning text that was put together. A text may be cut in front of any character that belongs to no
name: its tokens are those of the two parts (`scanFrom_append`). A name by itself is one token
(`scanFrom_isName`), and every name token covers such a name (`isName_of_mem_scanFrom`).
-/

namespace ShapeDispatch.Lexeme

/-- The character belongs to a name: it is no blank and no token of its own. -/
def IsNameChar (c : Char) : Prop := isBlank c = false ∧ TokenKind.ofPunctuation? c = none

/-- The characters make up a name. -/
def IsName (chars : List Char) : Prop := chars ≠ [] ∧ ∀ c ∈ chars, IsNameChar c

variable {c : Char} {rest chars : List Char} {kind : TokenKind} {offset : Nat}

theorem kind_ne_name (h : TokenKind.ofPunctuation? c = some kind) : kind ≠ .name := by
  unfold TokenKind.ofPunctuation? at h
  split at h <;> cases h <;> simp

theorem isBlank_eq_false (h : TokenKind.ofPunctuation? c = some kind) : isBlank c = false := by
  unfold TokenKind.ofPunctuation? at h
  split at h <;> first | rfl | cases h

theorem scanFrom_blank (h : isBlank c = true) :
    scanFrom offset (c :: rest) = scanFrom (offset + c.utf8Size) rest := by
  simp only [scanFrom, h, if_true]

theorem scanFrom_punctuation (kind : TokenKind) (h : TokenKind.ofPunctuation? c = some kind) :
    scanFrom offset (c :: rest) =
      ⟨kind, ⟨offset, offset + c.utf8Size⟩, [c]⟩ :: scanFrom (offset + c.utf8Size) rest := by
  simp only [scanFrom, isBlank_eq_false h, h, Bool.false_eq_true, if_false]

theorem scanFrom_nameChar (h : IsNameChar c) :
    scanFrom offset (c :: rest) =
      extend c offset (offset + c.utf8Size) (scanFrom (offset + c.utf8Size) rest) := by
  simp only [scanFrom, h.1, h.2, Bool.false_eq_true, if_false]

/-- The three ways in which a text can begin. -/
theorem char_cases (c : Char) :
    isBlank c = true ∨ (∃ kind, TokenKind.ofPunctuation? c = some kind) ∨ IsNameChar c := by
  cases hblank : isBlank c with
  | true => exact Or.inl rfl
  | false =>
    cases hkind : TokenKind.ofPunctuation? c with
    | some kind => exact Or.inr (Or.inl ⟨kind, rfl⟩)
    | none => exact Or.inr (Or.inr ⟨hblank, hkind⟩)

theorem mem_extend {start stop : Nat} {lexemes : List Lexeme} {l : Lexeme}
    (h : l ∈ extend c start stop lexemes) : l ∈ lexemes ∨ (l.span.start = start ∧
      (l.chars = [c] ∨ ∃ l' ∈ lexemes, l'.kind = .name ∧ l.chars = c :: l'.chars)) := by
  cases lexemes with
  | nil =>
    rw [extend, List.mem_singleton] at h
    subst h
    exact Or.inr ⟨rfl, Or.inl rfl⟩
  | cons first lexemes =>
    rw [extend] at h
    split at h
    · next hjoin =>
      rcases List.mem_cons.1 h with rfl | h
      · exact Or.inr ⟨rfl, Or.inr ⟨first, List.mem_cons_self .., hjoin.1, rfl⟩⟩
      · exact Or.inl (List.mem_cons_of_mem _ h)
    · rcases List.mem_cons.1 h with rfl | h
      · exact Or.inr ⟨rfl, Or.inl rfl⟩
      · exact Or.inl h

theorem le_start_of_mem_scanFrom : ∀ {chars : List Char} {offset : Nat} {l : Lexeme},
    l ∈ scanFrom offset chars → offset ≤ l.span.start
  | [], _, _, h => by cases h
  | c :: rest, offset, l, h => by
    rcases char_cases c with hblank | ⟨kind, hkind⟩ | hname
    · rw [scanFrom_blank hblank] at h
      have ih := le_start_of_mem_scanFrom h
      omega
    · rw [scanFrom_punctuation kind hkind] at h
      rcases List.mem_cons.1 h with rfl | h
      · exact Nat.le_refl _
      · have ih := le_start_of_mem_scanFrom h
        omega
    · rw [scanFrom_nameChar hname] at h
      rcases mem_extend h with h | ⟨hstart, _⟩
      · have ih := le_start_of_mem_scanFrom h
        omega
      · exact Nat.le_of_eq hstart.symm

/-- The token of a name covers nothing but characters of a name. -/
theorem isName_of_mem_scanFrom : ∀ {chars : List Char} {offset : Nat} {l : Lexeme},
    l ∈ scanFrom offset chars → l.kind = .name → IsName l.chars
  | [], _, _, h, _ => by cases h
  | c :: rest, offset, l, h, hl => by
    rcases char_cases c with hblank | ⟨kind, hkind⟩ | hname
    · rw [scanFrom_blank hblank] at h
      exact isName_of_mem_scanFrom h hl
    · rw [scanFrom_punctuation kind hkind] at h
      rcases List.mem_cons.1 h with rfl | h
      · exact absurd hl (kind_ne_name hkind)
      · exact isName_of_mem_scanFrom h hl
    · rw [scanFrom_nameChar hname] at h
      rcases mem_extend h with h | ⟨_, hchars | ⟨l', hl', hkind', hchars⟩⟩
      · exact isName_of_mem_scanFrom h hl
      · simp [hchars, IsName, hname]
      · have ih := isName_of_mem_scanFrom hl' hkind'
        simpa [hchars, IsName, hname] using ih.2

theorem isName_of_mem_scan {text : List Char} {l : Lexeme} (h : l ∈ scan text)
    (hl : l.kind = .name) : IsName l.chars := isName_of_mem_scanFrom h hl

/-- A name by itself is one token. -/
theorem scanFrom_isName : ∀ {chars : List Char} {offset : Nat}, IsName chars →
    scanFrom offset chars = [⟨.name, ⟨offset, offset + byteLength chars⟩, chars⟩]
  | [], _, h => absurd rfl h.1
  | [c], offset, h => by
    rw [scanFrom_nameChar (h.2 c (by simp))]
    rfl
  | c :: c' :: rest, offset, h => by
    have hrest : IsName (c' :: rest) := ⟨by simp, fun d hd => h.2 d (List.mem_cons_of_mem c hd)⟩
    rw [scanFrom_nameChar (h.2 c (by simp)), scanFrom_isName hrest, extend, if_pos ⟨rfl, rfl⟩]
    simp only [byteLength, Nat.add_assoc]

/-- What follows stays as it is when nothing in it joins the character. -/
theorem extend_append {start stop : Nat} {lexemes more : List Lexeme}
    (h : ∀ l ∈ more.head?, l.kind = .name → l.span.start ≠ stop) :
    extend c start stop (lexemes ++ more) = extend c start stop lexemes ++ more := by
  cases lexemes with
  | nil =>
    cases more with
    | nil => rfl
    | cons l more =>
      have hapart : ¬ (l.kind = .name ∧ l.span.start = stop) := fun hl => h l (by simp) hl.1 hl.2
      simp only [List.nil_append, extend, if_neg hapart, List.cons_append]
  | cons l lexemes =>
    rw [List.cons_append, extend, extend]
    split <;> rfl

/-- Nothing joins a name in front of a character that belongs to no name. -/
theorem head?_scanFrom_apart (rest : List Char) {stop : Nat} (hc : ¬ IsNameChar c)
    (h : stop ≤ offset) : ∀ l ∈ (scanFrom offset (c :: rest)).head?, l.kind = .name → l.span.start ≠ stop := by
  intro l hl hname
  rcases char_cases c with hblank | ⟨kind, hkind⟩ | hc'
  · rw [scanFrom_blank hblank] at hl
    have hstart := le_start_of_mem_scanFrom (List.mem_of_head? hl)
    have hpos := Char.utf8Size_pos c
    omega
  · rw [scanFrom_punctuation kind hkind] at hl
    cases hl
    exact absurd hname (kind_ne_name hkind)
  · exact absurd hc' hc

/-- A text may be cut in front of a character that belongs to no name. -/
theorem scanFrom_append (hc : ¬ IsNameChar c) : ∀ (chars : List Char) (offset : Nat),
    scanFrom offset (chars ++ c :: rest) =
      scanFrom offset chars ++ scanFrom (offset + byteLength chars) (c :: rest)
  | [], offset => rfl
  | d :: chars, offset => by
    have ih := scanFrom_append hc chars (offset + d.utf8Size)
    rw [Nat.add_assoc] at ih
    rcases char_cases d with hblank | ⟨kind, hkind⟩ | hname
    · rw [List.cons_append, scanFrom_blank hblank, scanFrom_blank hblank, ih, byteLength]
    · rw [List.cons_append, scanFrom_punctuation kind hkind, scanFrom_punctuation kind hkind, ih,
        byteLength, List.cons_append]
    · have hapart := head?_scanFrom_apart rest hc
        (Nat.add_le_add_left (Nat.le_add_right d.utf8Size (byteLength chars)) offset)
      rw [List.cons_append, scanFrom_nameChar hname, scanFrom_nameChar hname, ih, byteLength,
        extend_append hapart]

theorem scanFrom_append_punctuation (kind : TokenKind)
    (hc : TokenKind.ofPunctuation? c = some kind) :
    scanFrom offset (chars ++ c :: rest) = scanFrom offset chars ++
      ⟨kind, ⟨offset + byteLength chars, offset + byteLength chars + c.utf8Size⟩, [c]⟩ ::
        scanFrom (offset + byteLength chars + c.utf8Size) rest := by
  have hchar : ¬ IsNameChar c := by
    intro h
    rw [h.2] at hc
    cases hc
  rw [scanFrom_append hchar, scanFrom_punctuation kind hc]

theorem scanFrom_append_blank (hc : isBlank c = true) :
    scanFrom offset (chars ++ c :: rest) =
      scanFrom offset chars ++ scanFrom (offset + byteLength chars + c.utf8Size) rest := by
  have hchar : ¬ IsNameChar c := by
    intro h
    rw [h.1] at hc
    cases hc
  rw [scanFrom_append hchar, scanFrom_blank hc]

end ShapeDispatch.Lexeme
