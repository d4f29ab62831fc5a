import Mathlib.Data.List.Forall2
import ShapeDispatch.Classifier.Standard

/-!
Descriptions. At depth one the description of a list is the text of the key of its elements, and one
level deeper its elements are described as deep as the list was before. No level shows more than the
lists that a value holds inside each other (`Value.nesting`), so from that depth on a description stays
the same; and unless the token of a list looks like a description, it was another one at every depth
before (`Classifier.describe_list`).
-/

namespace ShapeDispatch
variable {β : Type}

/-! ### Nested lists -/

namespace Value

mutual

/-- How many lists are inside each other, where the value holds most. What a record or a host object
holds does not count. -/
def nesting : Value β → Nat
  | array items => nestingAll items + 1
  | arguments items => nestingAll items + 1
  | _ => 0

/-- The nesting of the values of a list. -/
def nestingAll : List (Value β) → Nat
  | [] => 0
  | item :: rest => max (nesting item) (nestingAll rest)

end

variable {v : Value β} {items : List (Value β)}

theorem nestingAll_le_iff {depth : Nat} :
    nestingAll items ≤ depth ↔ ∀ item ∈ items, item.nesting ≤ depth := by
  induction items with
  | nil => simp [nestingAll]
  | cons item rest ih => rw [nestingAll, Nat.max_le, ih, List.forall_mem_cons]

theorem nesting_le_succ_iff (h : v.elements? = some items) {depth : Nat} :
    v.nesting ≤ depth + 1 ↔ ∀ item ∈ items, item.nesting ≤ depth := by
  have hnesting : v.nesting = nestingAll items + 1 := by
    cases v with
    | array _ => rw [nesting, Option.some.inj h]
    | arguments _ => rw [nesting, Option.some.inj h]
    | _ => cases h
  rw [hnesting, Nat.add_le_add_iff_right, nestingAll_le_iff]

theorem nesting_eq_zero_iff : v.nesting = 0 ↔ v.elements? = none := by
  cases v <;> simp [nesting, elements?]

theorem exists_elements_of_lt {depth : Nat} (h : depth < v.nesting) :
    ∃ items, v.elements? = some items := by
  refine Option.ne_none_iff_exists'.1 (fun hnone => ?_)
  rw [nesting_eq_zero_iff.2 hnone] at h
  exact Nat.not_lt_zero depth h

end Value

/-! ### Texts that part -/

namespace Text

/-- The texts are the same up to a place where both go on, with different characters. -/
def Part (s t : String) : Prop :=
  ∃ front a b rest rest', s.toList = front ++ a :: rest ∧ t.toList = front ++ b :: rest' ∧ a ≠ b

theorem Part.ne {s t : String} (h : Part s t) : s ≠ t := by
  rintro rfl
  obtain ⟨front, a, b, rest, rest', hs, ht, hne⟩ := h
  rw [hs] at ht
  exact hne (List.cons.inj (List.append_cancel_left ht)).1

theorem Part.append_left {s t : String} (h : Part s t) (before : String) :
    Part (before ++ s) (before ++ t) := by
  obtain ⟨front, a, b, rest, rest', hs, ht, hne⟩ := h
  exact ⟨before.toList ++ front, a, b, rest, rest', by simp [hs], by simp [ht], hne⟩

/-- What is put behind the texts does not bring them together again. -/
theorem Part.append {s t : String} (h : Part s t) (behind behind' : String) :
    Part (s ++ behind) (t ++ behind') := by
  obtain ⟨front, a, b, rest, rest', hs, ht, hne⟩ := h
  exact ⟨front, a, b, rest ++ behind.toList, rest' ++ behind'.toList, by simp [hs], by simp [ht], hne⟩

/-- A text that begins with something else parts from what stands between brackets. -/
theorem part_bracketed {s : String} {first : Char} {rest : List Char} (hs : s.toList = first :: rest)
    (hfirst : first ≠ '[') (texts : List String) : Part s (bracketed texts) := by
  have htext : (bracketed texts).toList = '[' :: (", ".intercalate texts ++ "]").toList := by
    rw [bracketed, String.append_assoc, String.toList_append]
    rfl
  exact ⟨[], first, '[', rest, _, hs, htext, hfirst⟩

theorem exists_intercalate_cons (separator text : String) (texts : List String) :
    ∃ behind, separator.intercalate (text :: texts) = text ++ behind := by
  cases texts with
  | nil => exact ⟨"", by rw [String.intercalate_singleton, String.append_empty]⟩
  | cons next rest =>
    refine ⟨separator ++ separator.intercalate (next :: rest), ?_⟩
    rw [String.intercalate_cons_cons, String.append_assoc]

theorem part_intercalate (separator : String) {texts texts' : List String}
    (h : List.Forall₂ (fun s t => s = t ∨ Part s t) texts texts') (hne : texts ≠ texts') :
    Part (separator.intercalate texts) (separator.intercalate texts') := by
  induction h with
  | nil => exact absurd rfl hne
  | @cons s t texts texts' hst hrest ih =>
    rcases hst with rfl | hparts
    · have ih := ih (fun hsame => hne (by rw [hsame]))
      cases hrest with
      | nil => exact absurd rfl hne
      | cons _ _ =>
        rw [String.intercalate_cons_cons, String.intercalate_cons_cons]
        exact ih.append_left (s ++ separator)
    · obtain ⟨behind, hs⟩ := exists_intercalate_cons separator s texts
      obtain ⟨behind', ht⟩ := exists_intercalate_cons separator t texts'
      rw [hs, ht]
      exact hparts.append behind behind'

end Text

/-! ### Descriptions of lists -/

namespace Classifier
variable {c : Classifier β} {v : Value β} {items : List (Value β)}

theorem describeItems_eq_map (c : Classifier β) (depth : Nat) (items : List (Value β)) :
    c.describeItems depth items = items.map (c.describe depth) := by
  induction items with
  | nil => rfl
  | cons item rest ih => rw [describeItems, ih, List.map_cons]

theorem describe_zero (c : Classifier β) (v : Value β) : c.describe 0 v = c.classify v := by
  cases v <;> rfl

theorem describe_of_elements?_eq_none (h : v.elements? = none) (depth : Nat) :
    c.describe depth v = c.classify v := by
  cases v with
  | array _ => cases h
  | arguments _ => cases h
  | _ => rfl

theorem describe_succ (h : v.elements? = some items) (depth : Nat) :
    c.describe (depth + 1) v = Text.bracketed (items.map (c.describe depth)) := by
  rw [← describeItems_eq_map]
  cases v with
  | array _ => rw [← Option.some.inj h]; rfl
  | arguments _ => rw [← Option.some.inj h]; rfl
  | _ => cases h

/-- At the depth of the key only the elements are classified, none is entered. -/
theorem describe_one (h : v.elements? = some items) :
    c.describe 1 v = (c.typeKey items).render := by
  rw [describe_succ h, List.map_congr_left (fun item _ => c.describe_zero item)]
  rfl

/-- Depths that reach the innermost list make no difference. -/
theorem describe_congr {depth depth' : Nat} (h : v.nesting ≤ depth) (h' : v.nesting ≤ depth') :
    c.describe depth v = c.describe depth' v := by
  induction depth generalizing depth' v with
  | zero =>
    have hnone := Value.nesting_eq_zero_iff.1 (Nat.le_zero.1 h)
    rw [describe_of_elements?_eq_none hnone, describe_of_elements?_eq_none hnone]
  | succ depth ih =>
    cases helements : v.elements? with
    | none => rw [describe_of_elements?_eq_none helements, describe_of_elements?_eq_none helements]
    | some items =>
      cases depth' with
      | zero =>
        rw [Value.nesting_eq_zero_iff.1 (Nat.le_zero.1 h')] at helements
        cases helements
      | succ depth' =>
        rw [Value.nesting_le_succ_iff helements] at h h'
        rw [describe_succ helements, describe_succ helements]
        exact congrArg Text.bracketed
          (List.map_congr_left (fun item hitem => ih (h item hitem) (h' item hitem)))

/-- The token of a list is a text that does not begin with a bracket. -/
def NamesLists (c : Classifier β) : Prop :=
  ∀ (v : Value β) items, v.elements? = some items →
    ∃ first rest, (c.classify v).toList = first :: rest ∧ first ≠ '['

theorem namesLists_standard : (standard : Classifier β).NamesLists := by
  have harray : ∃ first rest, "array".toList = first :: rest ∧ first ≠ '[' :=
    ⟨'a', ['r', 'r', 'a', 'y'], rfl, by decide⟩
  intro v items hv
  cases v with
  | array _ => exact harray
  | arguments _ => exact harray
  | _ => cases hv

/-- Where lists are left whole, the description of the value parts from every deeper one. -/
theorem part_describe (hc : c.NamesLists) {depth depth' : Nat} (hdepth : depth < depth')
    (h : depth < v.nesting) : Text.Part (c.describe depth v) (c.describe depth' v) := by
  induction depth generalizing depth' v with
  | zero =>
    obtain ⟨items, hitems⟩ := Value.exists_elements_of_lt h
    obtain ⟨depth', rfl⟩ := Nat.exists_eq_add_one.2 hdepth
    obtain ⟨first, rest, htoken, hfirst⟩ := hc v items hitems
    rw [describe_zero, describe_succ hitems]
    exact Text.part_bracketed htoken hfirst _
  | succ depth ih =>
    obtain ⟨items, hitems⟩ := Value.exists_elements_of_lt h
    obtain ⟨depth', rfl⟩ := Nat.exists_eq_add_one.2 (Nat.zero_lt_of_lt hdepth)
    have hdepth := Nat.lt_of_succ_lt_succ hdepth
    -- the elements that are shown in full are the same, the others part
    have hitem : ∀ item ∈ items, c.describe depth item = c.describe depth' item ∨
        Text.Part (c.describe depth item) (c.describe depth' item) := by
      intro item _
      rcases Nat.lt_or_ge depth item.nesting with hdeeper | hshown
      · exact .inr (ih hdepth hdeeper)
      · exact .inl (describe_congr hshown (Nat.le_trans hshown (Nat.le_of_lt hdepth)))
    have hne : items.map (c.describe depth) ≠ items.map (c.describe depth') := by
      intro hsame
      rw [← Nat.not_le, Value.nesting_le_succ_iff hitems] at h
      refine h (fun item hmem => Nat.not_lt.1 (fun hdeeper => ?_))
      exact (ih hdepth hdeeper).ne (List.map_inj_left.1 hsame item hmem)
    have hparts := Text.part_intercalate ", "
      (List.forall₂_map_left_iff.2 (List.forall₂_map_right_iff.2 (List.forall₂_same.2 hitem))) hne
    rw [describe_succ hitems, describe_succ hitems]
    exact (hparts.append_left "[").append "]" "]"

/-- DESCRIPTIONS: a list is described at depth one by the text of the key of its elements, and one level
deeper by the descriptions of its elements between brackets. From the depth on that its lists are
nested the description of a value stays the same, and unless the token of some list looks like a
description, it was another one at every depth before. -/
theorem describe_list (c : Classifier β) :
    (∀ args list, list = .array args ∨ list = .arguments args →
      c.describe 1 list = (c.typeKey args).render ∧
      ∀ depth, c.describe (depth + 1) list =
        "[" ++ ", ".intercalate (args.map (c.describe depth)) ++ "]") ∧
    (∀ v reached depth, v.nesting ≤ reached → reached ≤ depth →
      c.describe depth v = c.describe reached v) ∧
    (c.NamesLists → ∀ v depth, depth < v.nesting →
      c.describe depth v ≠ c.describe v.nesting v) := by
  refine ⟨?_, ?_, ?_⟩
  · intro args list hlist
    have helements : list.elements? = some args := by
      rcases hlist with rfl | rfl
      · rfl
      · rfl
    refine ⟨describe_one helements, fun depth => ?_⟩
    rw [describe_succ helements, Text.bracketed]
  · intro v reached depth h hdepth
    exact describe_congr (Nat.le_trans h hdepth) h
  · intro hc v depth h
    exact (part_describe hc h h).ne

/-- A list with an empty list two levels down, a record that holds a list and a host object that reports
itself as a list. -/
def assorted : Value Unit :=
  .array [.arguments [.null, .array []], .object [("items", .array [.array []])],
    .host "Collection" [] [] (some "array")]

theorem describe_list_assorted :
    standard.describe 0 assorted = "array" ∧
    standard.describe 1 assorted = "[array, object, array]" ∧
    standard.describe 2 assorted = "[[null, array], object, array]" ∧
    (∀ depth ≥ 3, standard.describe depth assorted = "[[null, []], object, array]") ∧
    standard.describe 2 assorted ≠ standard.describe 3 assorted := by
  have hnesting : assorted.nesting = 3 := by decide
  obtain ⟨hlist, hstable, hbefore⟩ := describe_list (standard : Classifier Unit)
  obtain ⟨hkey, _⟩ := hlist _ assorted (.inl rfl)
  have htext : standard.describe 3 assorted = "[[null, []], object, array]" := by decide +kernel
  refine ⟨by decide +kernel, ?_, by decide +kernel, ?_, ?_⟩
  · rw [hkey]
    decide +kernel
  · intro depth hdepth
    rw [hstable assorted 3 depth (Nat.le_of_eq hnesting) hdepth, htext]
  · have hcut := hbefore namesLists_standard assorted 2 (by rw [hnesting]; decide)
    rwa [hnesting] at hcut

end Classifier

end ShapeDispatch
