import ShapeDispatch.Proofs.Reading
import ShapeDispatch.Shape

/-!
What a signature accepts, said without expansion: the positions of the mandatory groups and of some
of the optional ones, and one of the listed tokens at each. For a signature that was read, expansion
enumerates exactly the token lists that it accepts (`mem_expand_iff`). A shape has a key of its own
if it holds no alternatives, and is then all that the shape stands for (`Shape.keys_of_key?`).
-/

namespace ShapeDispatch

namespace Signature

def mandatoryGroups (s : Signature) : List Group := s.groups.filter (fun g => !g.optional)

def optionalGroups (s : Signature) : List Group := s.groups.filter Group.optional

/-- The positions of a call that supplies the first `count` optional groups. -/
def positionsWith (s : Signature) (count : Nat) : List Parameter :=
  (s.mandatoryGroups ++ s.optionalGroups.take count).flatMap Group.params

/-- For some number of optional groups, there is a token for each position and it is one of those that
the position lists. -/
def Accepts (s : Signature) (tokens : List String) : Prop :=
  ∃ count ≤ s.optionalGroups.length,
    List.Forall₂ (fun token p => token ∈ p.type.choices) tokens (s.positionsWith count)

end Signature

theorem Shape.mem_choices : ∀ {tokens : List String} {shape : Shape},
    tokens ∈ choices shape ↔ List.Forall₂ (fun token type => token ∈ type.choices) tokens shape
  | tokens, [] => by simp [choices]
  | tokens, position :: rest => by
    simp only [choices, List.mem_flatMap, List.mem_map, List.forall₂_cons_right_iff]
    constructor
    · rintro ⟨token, htoken, others, hothers, rfl⟩
      exact ⟨token, others, htoken, mem_choices.1 hothers, rfl⟩
    · rintro ⟨token, others, htoken, hothers, rfl⟩
      exact ⟨token, htoken, others, mem_choices.2 hothers, rfl⟩

theorem Shape.mem_keys {tokens : List String} {shape : Shape} :
    ⟨tokens⟩ ∈ keys shape ↔ List.Forall₂ (fun token type => token ∈ type.choices) tokens shape := by
  simp [keys, mem_choices]

namespace Signature

theorem mandatory_eq_of_optionalLast {s : Signature} (h : s.OptionalLast) :
    s.mandatory = s.mandatoryGroups ∧
      s.groups.dropWhile (fun g => !g.optional) = s.optionalGroups := by
  obtain ⟨groups, projection⟩ := s
  unfold OptionalLast at h
  simp only [mandatory, mandatoryGroups, optionalGroups] at h ⊢
  induction groups with
  | nil => exact ⟨rfl, rfl⟩
  | cons g groups ih =>
    rw [List.pairwise_cons] at h
    cases hg : g.optional with
    | false =>
      obtain ⟨hman, hopt⟩ := ih h.2
      simp [hg, hman, hopt]
    | true =>
      have hall : ∀ g' ∈ groups, g'.optional = true := fun g' hg' => h.1 g' hg' hg
      have hnone : groups.filter (fun g => !g.optional) = [] := by simpa using hall
      simp [hg, hnone, List.filter_eq_self.2 hall]

/-- Behind the mandatory groups there is one shape for each beginning of the optional ones. -/
theorem shapesBehind_eq (before : Shape) : ∀ {groups : List Group},
    (∀ g ∈ groups, g.optional = true) →
      shapesBehind before groups = (List.range groups.length).map
        (fun n => before ++ (groups.take (n + 1)).flatMap Group.types)
  | [], _ => rfl
  | g :: groups, h => by
    have hg : g.optional = true := h g (List.mem_cons_self ..)
    have ih := shapesBehind_eq (before ++ g.types)
      (fun g' hg' => h g' (List.mem_cons_of_mem g hg'))
    simp [shapesBehind, hg, ih, List.range_succ_eq_map, Function.comp_def]

/-- One shape for each number of optional groups. -/
theorem shapes_eq {s : Signature} (h : s.OptionalLast) :
    s.shapes = (List.range (s.optionalGroups.length + 1)).map
      (fun count => (s.positionsWith count).map Parameter.type) := by
  obtain ⟨hman, hopt⟩ := mandatory_eq_of_optionalLast h
  have hall : ∀ g ∈ s.optionalGroups, g.optional = true := fun g hg => (List.mem_filter.1 hg).2
  have htypes : ∀ groups : List Group,
      groups.flatMap Group.types = (groups.flatMap Group.params).map Parameter.type := by
    intro groups
    rw [List.map_flatMap]
    rfl
  simp only [shapes, hman, hopt, shapesBehind_eq _ hall, positionsWith, htypes,
    List.range_succ_eq_map, List.map_cons, List.map_map, Function.comp_def, List.flatMap_append,
    List.map_append, List.take_zero, List.flatMap_nil, List.map_nil, List.append_nil]

/-- A call that supplies all optional groups has all positions. -/
theorem positionsWith_all {s : Signature} (h : s.OptionalLast) :
    s.positionsWith s.optionalGroups.length = s.params := by
  obtain ⟨hman, hopt⟩ := mandatory_eq_of_optionalLast h
  have hgroups : s.mandatoryGroups ++ s.optionalGroups = s.groups := by
    rw [← hman, ← hopt]
    exact List.takeWhile_append_dropWhile
  rw [positionsWith, List.take_length, hgroups, params]

theorem mem_params_of_mem_positionsWith {s : Signature} {count : Nat} {p : Parameter}
    (h : p ∈ s.positionsWith count) : p ∈ s.params := by
  obtain ⟨g, hg, hp⟩ := List.mem_flatMap.1 h
  refine List.mem_flatMap.2 ⟨g, ?_, hp⟩
  rcases List.mem_append.1 hg with hg | hg
  · exact (List.mem_filter.1 hg).1
  · exact (List.mem_filter.1 (List.mem_of_mem_take hg)).1

/-- Expansion enumerates the token lists that a signature accepts. -/
theorem mem_expand_iff {s : Signature} (h : s.OptionalLast) {tokens : List String} :
    ⟨tokens⟩ ∈ s.expand ↔ s.Accepts tokens := by
  have hkeys : ∀ positions : List Parameter,
      ⟨tokens⟩ ∈ Shape.keys (positions.map Parameter.type) ↔
        List.Forall₂ (fun token p => token ∈ p.type.choices) tokens positions := by
    intro positions
    rw [Shape.mem_keys, List.forall₂_map_right_iff]
  rw [expand, shapes_eq h]
  simp only [List.mem_flatMap, List.mem_map, List.mem_range, Accepts]
  constructor
  · rintro ⟨shape, ⟨count, hcount, rfl⟩, hkey⟩
    exact ⟨count, Nat.le_of_lt_succ hcount, (hkeys _).1 hkey⟩
  · rintro ⟨count, hcount, htokens⟩
    exact ⟨_, ⟨count, Nat.lt_succ_of_le hcount, rfl⟩, (hkeys _).2 htokens⟩

end Signature

namespace Shape

/-- The shape of a key stands for that key. -/
theorem key?_ofKey (key : Key) : key? (ofKey key) = some key := by
  have h : ∀ tokens : List String,
      (tokens.map TypeToken.single).mapM token? = some tokens := by
    intro tokens
    induction tokens with
    | nil => rfl
    | cons token tokens ih => simp [List.mapM_cons, token?, ih]
  simp [key?, ofKey, h]

/-- A shape has no key exactly if it still holds alternatives. -/
theorem key?_eq_none_iff : ∀ {shape : Shape},
    key? shape = none ↔ ∃ type ∈ shape, type.isAlternatives = true
  | [] => by simp [key?]
  | .single token :: shape => by
    have ih : key? shape = none ↔ ∃ type ∈ shape, type.isAlternatives = true := key?_eq_none_iff
    have hsingle : (TypeToken.single token).isAlternatives = false := rfl
    rw [key?, Option.map_eq_none_iff] at ih ⊢
    rw [List.exists_mem_cons_iff, hsingle, ← ih]
    cases hrest : List.mapM token? shape <;> simp [List.mapM_cons, token?, hrest]
  | .alternatives tokens :: shape => by
    simp [key?, List.mapM_cons, token?, TypeToken.isAlternatives]

theorem keys_of_key? : ∀ {shape : Shape} {key : Key}, key? shape = some key → keys shape = [key]
  | [], key, h => by simpa [key?, keys, choices] using h
  | .single token :: shape, key, h => by
    simp only [key?, List.mapM_cons, token?] at h
    cases hrest : List.mapM token? shape with
    | none => simp [hrest] at h
    | some tokens =>
      have ih : (choices shape).map Key.mk = [⟨tokens⟩] := keys_of_key? (by rw [key?, hrest]; rfl)
      have hchoices : choices shape = [tokens] := by simpa using ih
      simpa [hrest, keys, choices, hchoices, TypeToken.choices] using h
  | .alternatives tokens :: shape, key, h => by simp [key?, List.mapM_cons, token?] at h

theorem keys_ofKey (key : Key) : keys (ofKey key) = [key] := keys_of_key? (key?_ofKey key)

/-- Shapes without alternatives stand for one key each. -/
theorem map_key?_eq {shapes : List Shape} (h : ∀ shape ∈ shapes, key? shape ≠ none) :
    shapes.map key? = (shapes.flatMap keys).map some := by
  induction shapes with
  | nil => rfl
  | cons shape shapes ih =>
    obtain ⟨key, hkey⟩ := Option.ne_none_iff_exists'.1 (h shape (List.mem_cons_self ..))
    have ih := ih (fun shape' h' => h shape' (List.mem_cons_of_mem shape h'))
    simp [hkey, keys_of_key? hkey, ih]

/-- The shapes of keys stand for these keys. -/
theorem map_key?_expanded (shapes : List Shape) :
    (shapes.flatMap (fun shape => (keys shape).map ofKey)).map key? =
      (shapes.flatMap keys).map some := by
  have hkeys : (shapes.flatMap (fun shape => (keys shape).map ofKey)).flatMap keys =
      shapes.flatMap keys := by
    simp [List.flatMap_assoc, List.flatMap_map, keys_ofKey]
  rw [map_key?_eq, hkeys]
  intro shape hshape
  obtain ⟨_, _, hmem⟩ := List.mem_flatMap.1 hshape
  obtain ⟨key, _, rfl⟩ := List.mem_map.1 hmem
  simp [key?_ofKey]

end Shape

namespace Signature

theorem hasAlternatives_iff {s : Signature} :
    s.hasAlternatives = true ↔ Shape.key? s.fullShape = none := by
  rw [Shape.key?_eq_none_iff]
  simp [hasAlternatives, fullShape]

/-- The alternatives of optional groups are in one of the shapes, since the last one is full. -/
theorem hasAlternatives_iff_shapes {s : Signature} (h : s.OptionalLast) :
    s.hasAlternatives = true ↔ ∃ shape ∈ s.shapes, Shape.key? shape = none := by
  rw [shapes_eq h]
  constructor
  · intro halternatives
    refine ⟨s.fullShape, ?_, hasAlternatives_iff.1 halternatives⟩
    refine List.mem_map.2 ⟨s.optionalGroups.length, by simp, ?_⟩
    rw [positionsWith_all h]
    rfl
  · rintro ⟨shape, hshape, hnone⟩
    obtain ⟨count, _, rfl⟩ := List.mem_map.1 hshape
    obtain ⟨_, htype, halternatives⟩ := Shape.key?_eq_none_iff.1 hnone
    obtain ⟨p, hp, rfl⟩ := List.mem_map.1 htype
    exact List.any_eq_true.2 ⟨p, mem_params_of_mem_positionsWith hp, halternatives⟩

end Signature

end ShapeDispatch
