import ShapeDispatch.Proofs.Keeping
import ShapeDispatch.Proofs.Rendering
import ShapeDispatch.Proofs.Synonyms

/-!
What a synonym stage leaves. A position that was read lists one token, or several that are pairwise
different (`TypeToken.Proper`), and the built-in stages keep it so. A synonym stage replaces the tokens of
every position and merges those that become the same. As no synonym is chained, none of its results is
replaced again, so that a second run changes nothing; where one is chained, the stage fails before it
changes anything (`Stage.run_tokenSynonyms`).
-/

namespace ShapeDispatch
variable {β : Type}

theorem map_eq_self {α : Type} {f : α → α} {l : List α} (h : ∀ a ∈ l, f a = a) : l.map f = l :=
  (List.map_congr_left h).trans (List.map_id' l)

/-! ### What stages keep of the positions -/

/-- One token, or several that are pairwise different. -/
def TypeToken.Proper : TypeToken → Prop
  | .single _ => True
  | .alternatives tokens => 2 ≤ tokens.length ∧ tokens.Nodup

theorem TypeToken.Proper.choices_ne_nil {type : TypeToken} (h : type.Proper) : type.choices ≠ [] := by
  cases type with
  | single token => exact List.cons_ne_nil token []
  | alternatives tokens => exact List.ne_nil_of_length_pos (Nat.lt_of_lt_of_le Nat.two_pos h.1)

namespace Signature

theorem SpellsParameter.proper {lexemes : List Lexeme} {p : Parameter} (h : SpellsParameter lexemes p)
    (hdistinct : p.type.choices.Nodup) : p.type.Proper := by
  cases h with
  | plain _ => trivial
  | bound _ _ _ => trivial
  | alternatives hchoices _ _ =>
    refine ⟨?_, hdistinct⟩
    have hfirst := List.length_pos_of_ne_nil hchoices.names_ne_nil
    rw [List.length_append, List.length_singleton]
    omega

theorem proper_of_read {text : String} {s : Signature} (h : read text = .ok s) :
    ∀ g ∈ s.groups, ∀ type ∈ g.types, type.Proper := by
  intro g hg type htype
  obtain ⟨p, hp, rfl⟩ := List.mem_map.1 htype
  have hp : p ∈ s.params := List.mem_flatMap.2 ⟨g, hg, hp⟩
  obtain ⟨_, hspells, _⟩ := spellable_of_read h p hp
  exact hspells.proper ((spelledBy_of_read h).2.distinctChoices p hp)

/-- The shapes of a signature are made of its positions. -/
theorem mem_types_of_mem_shapesBehind {type : TypeToken} : ∀ {groups : List Group} {before shape : Shape},
    shape ∈ shapesBehind before groups → type ∈ shape →
      type ∈ before ∨ ∃ g ∈ groups, type ∈ g.types
  | g :: groups, before, shape, h, htype => by
    have hshape : shape = before ++ g.types ∨ shape ∈ shapesBehind (before ++ g.types) groups := by
      rw [shapesBehind] at h
      split at h
      · exact List.mem_cons.1 h
      · exact .inr h
    have hplace : type ∈ before ++ g.types ∨ ∃ g' ∈ groups, type ∈ g'.types := by
      rcases hshape with rfl | hbehind
      · exact .inl htype
      · exact mem_types_of_mem_shapesBehind hbehind htype
    rcases hplace with hhere | ⟨g', hg', hlater⟩
    · exact (List.mem_append.1 hhere).imp_right (fun hg => ⟨g, List.mem_cons_self .., hg⟩)
    · exact .inr ⟨g', List.mem_cons_of_mem g hg', hlater⟩

theorem mem_types_of_mem_shapes {s : Signature} {shape : Shape} {type : TypeToken}
    (h : shape ∈ s.shapes) (htype : type ∈ shape) : ∃ g ∈ s.groups, type ∈ g.types := by
  have hmandatory : type ∈ s.mandatory.flatMap Group.types → ∃ g ∈ s.groups, type ∈ g.types := by
    intro hmem
    obtain ⟨g, hg, hmem⟩ := List.mem_flatMap.1 hmem
    exact ⟨g, List.takeWhile_subset _ hg, hmem⟩
  rcases List.mem_cons.1 h with rfl | hbehind
  · exact hmandatory htype
  · rcases mem_types_of_mem_shapesBehind hbehind htype with hmem | ⟨g, hg, hmem⟩
    · exact hmandatory hmem
    · exact ⟨g, List.dropWhile_subset _ hg, hmem⟩

end Signature

namespace Synonyms
variable {synonyms : Synonyms}

theorem proper_replaceType {type : TypeToken} (h : type.Proper) :
    (synonyms.replaceType type).Proper := by
  cases type with
  | single token => trivial
  | alternatives tokens =>
    have hnonempty : (tokens.map synonyms.replace).eraseDups ≠ [] := by
      obtain ⟨first, rest, rfl⟩ := List.exists_cons_of_ne_nil h.choices_ne_nil
      rw [List.map_cons, List.eraseDups_cons]
      exact List.cons_ne_nil _ _
    have hnodup := nodup_eraseDups (tokens.map synonyms.replace)
    rw [replaceType]
    generalize (tokens.map synonyms.replace).eraseDups = left at hnonempty hnodup
    cases left with
    | nil => exact absurd rfl hnonempty
    | cons first rest =>
      cases rest with
      | nil => trivial
      | cons second rest => exact ⟨Nat.le_add_left 2 rest.length, hnodup⟩

theorem proper_of_mem_replaceShape {shape : Shape} (h : ∀ type ∈ shape, type.Proper) :
    ∀ type ∈ synonyms.replaceShape shape, type.Proper := by
  intro type htype
  obtain ⟨before, hbefore, rfl⟩ := List.mem_map.1 htype
  exact proper_replaceType (h before hbefore)

end Synonyms

namespace PlannedEntry

/-- Every position of the signature and of the shapes lists one token, or several that are pairwise
different. -/
structure Proper (e : PlannedEntry β) : Prop where
  signature : ∀ g ∈ e.signature.groups, ∀ type ∈ g.types, type.Proper
  shapes : ∀ shape ∈ e.shapes, ∀ type ∈ shape, type.Proper

/-- The entry is as it was made from a text that was read. -/
def Parsed (e : PlannedEntry β) : Prop :=
  ∃ order source text signature target defaults, Signature.read text = .ok signature ∧
    e = fresh order source signature target defaults

theorem Parsed.proper {e : PlannedEntry β} (h : e.Parsed) : e.Proper := by
  obtain ⟨_, _, _, s, _, _, hread, rfl⟩ := h
  have hsignature := Signature.proper_of_read hread
  refine ⟨hsignature, ?_⟩
  intro shape hshape type htype
  obtain rfl := List.mem_singleton.1 hshape
  obtain ⟨p, hp, rfl⟩ := List.mem_map.1 htype
  obtain ⟨g, hg, hp⟩ := List.mem_flatMap.1 hp
  exact hsignature g hg p.type (List.mem_map_of_mem hp)

theorem Proper.onEntry {e : PlannedEntry β} (h : e.Proper) (stage : Stage β) :
    (stage.onEntry e).Proper := by
  cases stage with
  | bindNames => exact ⟨h.signature, h.shapes⟩
  | expandOptionalGroups =>
    refine ⟨h.signature, ?_⟩
    intro shape hshape type htype
    obtain ⟨g, hg, hmem⟩ := Signature.mem_types_of_mem_shapes hshape htype
    exact h.signature g hg type hmem
  | expandAlternatives =>
    refine ⟨h.signature, ?_⟩
    intro shape hshape type htype
    obtain ⟨_, _, hshape⟩ := List.mem_flatMap.1 hshape
    obtain ⟨key, _, rfl⟩ := List.mem_map.1 hshape
    obtain ⟨token, _, rfl⟩ := List.mem_map.1 htype
    trivial
  | tokenSynonyms synonyms =>
    constructor
    · intro g hg
      obtain ⟨before, hbefore, rfl⟩ := List.mem_map.1 hg
      rw [Synonyms.types_replaceGroup]
      exact Synonyms.proper_of_mem_replaceShape (h.signature before hbefore)
    · intro shape hshape
      obtain ⟨before, hbefore, rfl⟩ := List.mem_map.1 hshape
      exact Synonyms.proper_of_mem_replaceShape (h.shapes before hbefore)
  | custom name change => exact h

end PlannedEntry

/-- Whatever the built-in stages make of entries that were read, no position lists a token twice. -/
theorem Stage.proper_of_runAll {stages : List (Stage β)} {parsed planned : List (PlannedEntry β)}
    (hparsed : ∀ e ∈ parsed, e.Parsed) (hstages : ∀ stage ∈ stages, stage.BuiltIn)
    (h : runAll stages parsed = .ok planned) : ∀ e ∈ planned, e.Proper := by
  refine forall_runAll (fun stage hstage => ?_) (fun e he => (hparsed e he).proper) h
  exact (hstages stage hstage).preserves (fun e he => he.onEntry stage)

/-! ### Entries behind the replacement -/

namespace Synonyms
variable {synonyms : Synonyms}

/-- What becomes of the type of a position: its tokens are replaced and stand in the order of their first
occurrence, and none of them would be replaced again. -/
structure Replaces (synonyms : Synonyms) (before after : TypeToken) : Prop where
  choices_eq : after.choices = (before.choices.map synonyms.replace).eraseDups
  settled : ∀ token ∈ after.choices, ∀ other, synonyms.find? token = some other → other = token

/-- What becomes of an entry: the type of every position of its signature and of its shapes is replaced,
each where it stands and with the name it binds, and all else stays as it is. -/
structure ReplacesIn (synonyms : Synonyms) (before after : PlannedEntry β) : Prop where
  groups : List.Forall₂ (fun g g' => g'.optional = g.optional ∧
    List.Forall₂ (fun p p' => p'.name = p.name ∧ synonyms.Replaces p.type p'.type)
      g.params g'.params) before.signature.groups after.signature.groups
  shapes : List.Forall₂ (List.Forall₂ synonyms.Replaces) before.shapes after.shapes
  rest : after = { before with
    signature := { before.signature with groups := after.signature.groups }, shapes := after.shapes }

theorem replaces_replaceType (h : synonyms.chained? = none) (type : TypeToken) :
    synonyms.Replaces type (synonyms.replaceType type) where
  choices_eq := synonyms.choices_replaceType type
  settled := by
    intro token htoken other hother
    rw [choices_replaceType, List.mem_eraseDups] at htoken
    obtain ⟨before, _, rfl⟩ := List.mem_map.1 htoken
    have hreplaced := replace_replace h before
    rwa [replace, hother, Option.getD_some] at hreplaced

theorem replacesIn_replaceEntry (h : synonyms.chained? = none) (e : PlannedEntry β) :
    synonyms.ReplacesIn e (synonyms.replaceEntry e) where
  groups := by
    refine List.forall₂_map_right_iff.2 (List.forall₂_same.2 (fun g _ => ⟨rfl, ?_⟩))
    refine List.forall₂_map_right_iff.2 (List.forall₂_same.2 (fun p _ => ⟨rfl, ?_⟩))
    exact replaces_replaceType h p.type
  shapes := by
    refine List.forall₂_map_right_iff.2 (List.forall₂_same.2 (fun shape _ => ?_))
    exact List.forall₂_map_right_iff.2 (List.forall₂_same.2 (fun type _ => replaces_replaceType h type))
  rest := rfl

/-- Tokens that are pairwise different and are not replaced stay as they are. -/
theorem Replaces.replaceType_eq {before after : TypeToken} (h : synonyms.Replaces before after)
    (hproper : after.Proper) : synonyms.replaceType after = after := by
  have hkept : ∀ token ∈ after.choices, synonyms.replace token = token := by
    intro token htoken
    rw [replace]
    cases hfind : synonyms.find? token with
    | none => rfl
    | some other => exact h.settled token htoken other hfind
  cases after with
  | single token => exact congrArg TypeToken.single (hkept token (List.mem_singleton_self token))
  | alternatives tokens =>
    obtain ⟨hlength, hnodup⟩ := hproper
    have hmap : tokens.map synonyms.replace = tokens := map_eq_self hkept
    have hsame : (tokens.map synonyms.replace).eraseDups = tokens := by
      rw [hmap, eraseDups_of_nodup hnodup]
    rw [replaceType, hsame]
    split
    · next only => exact absurd hlength (by simp)
    · rfl

/-- An entry whose tokens were replaced stays as it is when they are replaced again. -/
theorem ReplacesIn.replaceEntry_eq {before after : PlannedEntry β}
    (h : synonyms.ReplacesIn before after) (hproper : after.Proper) :
    synonyms.replaceEntry after = after := by
  have hgroups : after.signature.groups.map synonyms.replaceGroup = after.signature.groups := by
    refine map_eq_self (fun g hg => ?_)
    obtain ⟨_, _, _, hparams⟩ := exists_mem_of_forall₂ h.groups hg
    have hkept : g.params.map synonyms.replaceParameter = g.params := by
      refine map_eq_self (fun p hp => ?_)
      obtain ⟨_, _, _, htype⟩ := exists_mem_of_forall₂ hparams hp
      rw [replaceParameter,
        htype.replaceType_eq (hproper.signature g hg p.type (List.mem_map_of_mem hp))]
    rw [replaceGroup, hkept]
  have hshapes : after.shapes.map synonyms.replaceShape = after.shapes := by
    refine map_eq_self (fun shape hshape => map_eq_self (fun type htype => ?_))
    obtain ⟨_, _, htypes⟩ := exists_mem_of_forall₂ h.shapes hshape
    obtain ⟨_, _, hreplaces⟩ := exists_mem_of_forall₂ htypes htype
    exact hreplaces.replaceType_eq (hproper.shapes shape hshape type htype)
  have hsignature : synonyms.replaceSignature after.signature = after.signature :=
    congrArg (fun groups => { after.signature with groups := groups }) hgroups
  rw [replaceEntry, hsignature, hshapes]

/-! ### Replacing in place -/

end Synonyms

/-- Changing the first positions one after the other changes the elements there. -/
theorem getElem?_foldl_modify {α : Type} (f : α → α) (l : List α) (count position : Nat) :
    ((List.range count).foldl (fun l i => l.modify i f) l)[position]? =
      if position < count then l[position]?.map f else l[position]? := by
  induction count with
  | zero => rfl
  | succ count ih =>
    rw [List.range_succ, List.foldl_append, List.foldl_cons, List.foldl_nil, List.getElem?_modify, ih]
    rcases Nat.lt_trichotomy position count with hlt | rfl | hgt
    · simp [hlt, Nat.lt_succ_of_lt hlt, Nat.ne_of_gt hlt]
    · simp
    · simp [Nat.not_lt_of_gt hgt, Nat.ne_of_lt hgt, Nat.not_lt.2 hgt]

theorem foldl_modify_range {α : Type} (f : α → α) (l : List α) :
    (List.range l.length).foldl (fun l i => l.modify i f) l = l.map f := by
  refine List.ext_getElem? (fun position => ?_)
  rw [getElem?_foldl_modify, List.getElem?_map]
  split
  · rfl
  · next hpast => rw [List.getElem?_eq_none (Nat.not_lt.1 hpast), Option.map_none]

theorem run_forIn_modify {α ε : Type} (f : α → α) (positions : List Nat) (l : List α) :
    (forIn positions PUnit.unit (fun position _ => do
      modify (fun l => l.modify position f)
      pure (.yield PUnit.unit)) : EStateM ε (List α) PUnit).run l =
        .ok PUnit.unit (positions.foldl (fun l i => l.modify i f) l) := by
  induction positions generalizing l with
  | nil => rfl
  | cons position positions ih =>
    rw [List.forIn_cons]
    exact ih _

/-- Replacing in place is the stage: where it fails, it has not changed any entry yet. -/
theorem Synonyms.run_replaceInPlace (synonyms : Synonyms) (entries : List (PlannedEntry β)) :
    synonyms.replaceInPlace.run entries =
      match (Stage.tokenSynonyms synonyms).run entries with
      | .ok entries' => .ok () entries'
      | .error error => .error error entries := by
  rw [Stage.run, replaceInPlace]
  cases synonyms.chained? with
  | some pair => rfl
  | none =>
    simp only [EStateM.run_bind, EStateM.run_get, run_forIn_modify, foldl_modify_range,
      EStateM.run_pure]

theorem Stage.run_synonyms_eq_ok_iff {synonyms : Synonyms} {entries replaced : List (PlannedEntry β)} :
    (tokenSynonyms synonyms).run entries = .ok replaced ↔
      synonyms.chained? = none ∧ entries.map synonyms.replaceEntry = replaced := by
  rw [run]
  cases synonyms.chained? with
  | none => simp
  | some pair => simp

/-- REPLACEMENT: a synonym stage succeeds exactly if nothing that another token becomes is replaced in
turn. Behind it every position lists one token, or several that are pairwise different: those that its
tokens become, in the order of their first occurrence. None of them is replaced again, so that a second
run changes nothing. Where the stage fails, it has not changed any entry. -/
theorem Stage.run_tokenSynonyms {stages : List (Stage β)} {parsed planned : List (PlannedEntry β)}
    (hparsed : ∀ e ∈ parsed, e.Parsed) (hstages : ∀ stage ∈ stages, stage.BuiltIn)
    (hplanned : runAll stages parsed = .ok planned) (synonyms : Synonyms) :
    ((∃ replaced, (tokenSynonyms synonyms).run planned = .ok replaced) ↔
      ∀ before after, synonyms.find? before = some after → before ≠ after →
        synonyms.find? after = none) ∧
    (∀ replaced, (tokenSynonyms synonyms).run planned = .ok replaced →
      (∀ e ∈ replaced, e.Proper) ∧ List.Forall₂ synonyms.ReplacesIn planned replaced ∧
      (tokenSynonyms synonyms).run replaced = .ok replaced ∧
      synonyms.replaceInPlace.run planned = .ok () replaced) ∧
    ∀ error, (tokenSynonyms synonyms).run planned = .error error →
      synonyms.replaceInPlace.run planned = .error error planned := by
  refine ⟨?_, ?_, ?_⟩
  · simp only [run_synonyms_eq_ok_iff, ← Synonyms.chained?_eq_none_iff, exists_and_left,
      exists_eq', and_true]
  · intro replaced h
    have hinPlace : synonyms.replaceInPlace.run planned = .ok () replaced := by
      rw [synonyms.run_replaceInPlace, h]
    obtain ⟨hunchained, rfl⟩ := run_synonyms_eq_ok_iff.1 h
    have hproper : ∀ e ∈ planned.map synonyms.replaceEntry, e.Proper := by
      intro e he
      obtain ⟨before, hbefore, rfl⟩ := List.mem_map.1 he
      exact (proper_of_runAll hparsed hstages hplanned before hbefore).onEntry (tokenSynonyms synonyms)
    have hreplaces : List.Forall₂ synonyms.ReplacesIn planned (planned.map synonyms.replaceEntry) :=
      List.forall₂_map_right_iff.2
        (List.forall₂_same.2 (fun e _ => Synonyms.replacesIn_replaceEntry hunchained e))
    refine ⟨hproper, hreplaces, run_synonyms_eq_ok_iff.2 ⟨hunchained, map_eq_self ?_⟩, hinPlace⟩
    intro e he
    obtain ⟨_, _, hreplaced⟩ := exists_mem_of_forall₂ hreplaces he
    exact hreplaced.replaceEntry_eq (hproper e he)
  · intro error h
    rw [synonyms.run_replaceInPlace, h]

/-- A token that stays as it is among those that are replaced. -/
def canonical : Synonyms := .ofPairs [("list", "array"), ("fn", "function"), ("string", "string")]

/-- A token that becomes another one that is replaced. -/
def successive : Synonyms := .ofPairs [("list", "vec"), ("vec", "array")]

/-- An entry with one shape for its whole signature. -/
def ungrouped (s : Signature) : PlannedEntry Unit :=
  .fresh 0 "grouped" s (.method ⟨"grouped", 0, [], ()⟩) []

/-- The entry with a shape for each number of its optional groups. -/
def grouped (s : Signature) : PlannedEntry Unit := (ungrouped s).expandOptionalGroups

/-- Of alternatives some or all become the same; synonyms that are chained leave them alone. -/
theorem Stage.run_tokenSynonyms_grouped : ∃ s replaced error,
    Signature.read "[list|array|fn, fn|function] [list]? > [value, handler, rest]" = .ok s ∧
    (tokenSynonyms canonical).run [grouped s] = .ok replaced ∧
    replaced.map (fun e => (e.signature.render, e.shapes.map Shape.render)) =
      [("[array|function, function] [array]? > [value, handler, rest]",
        ["[array|function, function]", "[array|function, function, array]"])] ∧
    (∀ e ∈ replaced, e.Proper) ∧ List.Forall₂ canonical.ReplacesIn [grouped s] replaced ∧
    (tokenSynonyms canonical).run replaced = .ok replaced ∧
    successive.replaceInPlace.run [grouped s] = .error error [grouped s] := by
  obtain ⟨s, hread, hrender⟩ : ∃ s, Signature.read
      "[list|array|fn, fn|function] [list]? > [value, handler, rest]" = .ok s ∧
      ((tokenSynonyms canonical).run [grouped s]).toOption.map
          (List.map (fun e => (e.signature.render, e.shapes.map Shape.render))) =
        some [("[array|function, function] [array]? > [value, handler, rest]",
          ["[array|function, function]", "[array|function, function, array]"])] :=
    exists_ok_of_toOption (by decide +kernel)
  obtain ⟨replaced, hreplaced, hrender⟩ := exists_ok_of_toOption hrender
  have hparsed : ∀ e ∈ [ungrouped s], e.Parsed := by
    intro e he
    rw [List.mem_singleton.1 he]
    exact ⟨_, _, _, s, _, _, hread, rfl⟩
  have hstages : ∀ stage ∈ [(expandOptionalGroups : Stage Unit)], stage.BuiltIn := by
    simp [BuiltIn]
  have hplanned : runAll [expandOptionalGroups] [ungrouped s] = .ok [grouped s] := rfl
  have hlaw := run_tokenSynonyms hparsed hstages hplanned
  obtain ⟨hproper, hreplaces, hagain, _⟩ := (hlaw canonical).2.1 replaced hreplaced
  obtain ⟨hsucceeds, _, hfails⟩ := hlaw successive
  cases hrun : (tokenSynonyms successive).run [grouped s] with
  | ok replaced =>
    have hkept := hsucceeds.1 ⟨replaced, hrun⟩ "list" "vec" (by decide +kernel) (by decide)
    exact absurd hkept (by decide +kernel)
  | error error =>
    exact ⟨s, replaced, error, hread, hreplaced, hrender, hproper, hreplaces, hagain,
      hfails error hrun⟩

end ShapeDispatch
