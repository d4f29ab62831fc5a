import Mathlib.Data.List.Enum
import ShapeDispatch.Proofs.Building

/-!
What a list of the standard stages leaves of a signature, in whatever order they come and however
often. Expanding optional groups starts again from the signature, so what counts is whether it is
done at all and whether alternatives are expanded behind the last time (`Stage.ExpandsAtEnd`). A
table is refused for a shape with alternatives exactly where they are not; otherwise an entry claims
the keys of all shapes of its signature, or of the full one (`Engine.buildTable_of_standardStages`).
-/

namespace ShapeDispatch
variable {β : Type}

namespace Stage

/-- Alternatives are expanded, and optional groups are not expanded anew behind that. -/
def ExpandsAtEnd (stages : List (Stage β)) : Prop :=
  ∃ behind, expandAlternatives :: behind <:+ stages ∧ expandOptionalGroups ∉ behind

theorem expandsAtEnd_concat {stages : List (Stage β)} {stage : Stage β} :
    ExpandsAtEnd (stages ++ [stage]) ↔
      stage = expandAlternatives ∨ stage ≠ expandOptionalGroups ∧ ExpandsAtEnd stages := by
  simp only [ExpandsAtEnd, List.suffix_concat_iff]
  constructor
  · rintro ⟨behind, hnil | ⟨front, hfront, hsuffix⟩, hgroups⟩
    · cases hnil
    · cases front with
      | nil =>
        cases hfront
        exact .inl rfl
      | cons first front =>
        obtain ⟨rfl, rfl⟩ := List.cons.inj (hfront.trans (List.cons_append ..))
        rw [List.mem_append, not_or, List.mem_singleton] at hgroups
        exact .inr ⟨fun heq => hgroups.2 heq.symm, front, hsuffix, hgroups.1⟩
  · rintro (rfl | ⟨hne, behind, hsuffix, hgroups⟩)
    · exact ⟨[], .inr ⟨[], rfl, List.nil_suffix⟩, List.not_mem_nil⟩
    · refine ⟨behind ++ [stage], .inr ⟨_, rfl, hsuffix⟩, ?_⟩
      rw [List.mem_append, not_or, List.mem_singleton]
      exact ⟨hgroups, Ne.symm hne⟩

theorem not_expandsAtEnd_nil : ¬ExpandsAtEnd ([] : List (Stage β)) := by
  rintro ⟨behind, hsuffix, _⟩
  exact absurd (List.suffix_nil.1 hsuffix) (List.cons_ne_nil _ _)

theorem expandsAtEnd_standard : ExpandsAtEnd (standard : List (Stage β)) :=
  ⟨[], ⟨[bindNames, expandOptionalGroups], rfl⟩, List.not_mem_nil⟩

end Stage

/-- What is known of an entry with the signature `s` behind the stages `done`: its shapes are
`whole`, those of the optional groups or the full one, and as expanded as the stages left them. -/
structure PlannedEntry.Behind (done : List (Stage β)) (s : Signature) (whole : List Shape)
    (e : PlannedEntry β) : Prop where
  signature_eq : e.signature = s
  grouped : .expandOptionalGroups ∈ done → whole = s.shapes
  ungrouped : .expandOptionalGroups ∉ done → whole = [s.fullShape]
  expanded : Stage.ExpandsAtEnd done →
    e.shapes = whole.flatMap (fun shape => (Shape.keys shape).map Shape.ofKey)
  unexpanded : ¬Stage.ExpandsAtEnd done → e.shapes = whole

namespace PlannedEntry

theorem behind_fresh (order : Nat) (source : String) (s : Signature) (target : Target β)
    (defaults : List (Value β)) :
    (fresh order source s target defaults).Behind [] s [s.fullShape] where
  signature_eq := rfl
  grouped hmem := absurd hmem List.not_mem_nil
  ungrouped _ := rfl
  expanded hends := absurd hends Stage.not_expandsAtEnd_nil
  unexpanded _ := rfl

namespace Behind
variable {stages done : List (Stage β)} {s : Signature} {whole : List Shape} {e : PlannedEntry β}

/-- Shapes that are expanded stay as they are when they are expanded again. -/
theorem shapes_expandAlternatives (h : e.Behind done s whole) : e.expandAlternatives.shapes =
    whole.flatMap (fun shape => (Shape.keys shape).map Shape.ofKey) := by
  rw [expandAlternatives]
  by_cases hends : Stage.ExpandsAtEnd done
  · simp [h.expanded hends, List.flatMap_assoc, Shape.keys_ofKey, List.map_eq_flatMap]
  · rw [h.unexpanded hends]

theorem onEntry {stage : Stage β} (hstage : stage ∈ Stage.standard) (h : e.Behind done s whole) :
    ∃ whole', (stage.onEntry e).Behind (done ++ [stage]) s whole' := by
  obtain rfl | rfl | rfl := Stage.mem_standard_iff.1 hstage
  -- only the expansion of optional groups changes what the shapes are of
  · refine ⟨whole, h.signature_eq, ?_, ?_, ?_, ?_⟩
    · simpa using h.grouped
    · simpa using h.ungrouped
    · simpa [Stage.expandsAtEnd_concat, Stage.onEntry, bindNames] using h.expanded
    · simpa [Stage.expandsAtEnd_concat, Stage.onEntry, bindNames] using h.unexpanded
  · refine ⟨s.shapes, h.signature_eq, fun _ => rfl, by simp, ?_, ?_⟩
    · simp [Stage.expandsAtEnd_concat]
    · simp [Stage.onEntry, expandOptionalGroups, h.signature_eq]
  · refine ⟨whole, h.signature_eq, ?_, ?_, fun _ => h.shapes_expandAlternatives, ?_⟩
    · simpa using h.grouped
    · simpa using h.ungrouped
    · simp [Stage.expandsAtEnd_concat]

theorem onEntryAll (hstages : ∀ stage ∈ stages, stage ∈ Stage.standard)
    (h : e.Behind done s whole) :
    ∃ whole', (Stage.onEntryAll stages e).Behind (done ++ stages) s whole' := by
  induction stages generalizing done whole e with
  | nil => exact ⟨whole, by simpa [Stage.onEntryAll] using h⟩
  | cons stage stages ih =>
    obtain ⟨hstage, hstages⟩ := List.forall_mem_cons.1 hstages
    obtain ⟨whole', h'⟩ := h.onEntry hstage
    have hrest := ih hstages h'
    rwa [List.append_assoc] at hrest

/-- Whether an entry is left with a shape that has no key. -/
theorem exists_key?_eq_none_iff (hs : s.OptionalLast) (h : e.Behind done s whole) :
    (∃ shape ∈ e.shapes, Shape.key? shape = none) ↔
      s.hasAlternatives = true ∧ ¬Stage.ExpandsAtEnd done := by
  by_cases hends : Stage.ExpandsAtEnd done
  · simp [h.expanded hends, hends, Shape.key?_ofKey]
  · rw [h.unexpanded hends, and_iff_left hends]
    by_cases hgroups : .expandOptionalGroups ∈ done
    · rw [h.grouped hgroups, Signature.hasAlternatives_iff_shapes hs]
    · simp [h.ungrouped hgroups, Signature.hasAlternatives_iff]

/-- The keys of an entry are those of its shapes before alternatives were expanded. -/
theorem map_key?_shapes (h : e.Behind done s whole)
    (hkeys : ∀ shape ∈ e.shapes, Shape.key? shape ≠ none) :
    e.shapes.map Shape.key? = (whole.flatMap Shape.keys).map some := by
  by_cases hends : Stage.ExpandsAtEnd done
  · rw [h.expanded hends, Shape.map_key?_expanded]
  · rw [Shape.map_key?_eq hkeys, h.unexpanded hends]

end Behind

end PlannedEntry

/-- Unless collisions are rejected, building fails for a shape without a key exactly if there is
one. -/
theorem buildTable_unexpanded_iff (classifier : Classifier β) (planned : List (PlannedEntry β))
    {config : EngineConfig} (hpolicy : config.collisionPolicy ≠ .reject) :
    (∃ source shape, buildTable classifier config planned =
      .error (.unexpandedShape source shape)) ↔
        ∃ e ∈ planned, ∃ shape ∈ e.shapes, Shape.key? shape = none := by
  constructor
  · rintro ⟨source, shape, h⟩
    rcases bind_eq_error.1 h with hclaims | ⟨claims, _, h⟩
    · obtain ⟨e, he, shape, hshape, hnone, _⟩ := Claims.all_eq_error hpolicy hclaims
      exact ⟨e, he, shape, hshape, hnone⟩
    · exfalso
      rcases bind_eq_error.1 h with hends | ⟨ends, _, h⟩
      · obtain ⟨_, _, herror⟩ := mapError_eq_error.1 hends
        cases herror
      · cases h
  · rintro ⟨e, he, shape, hshape, hnone⟩
    cases hclaims : Claims.all config.collisionPolicy planned with
    | ok claims => exact absurd hnone (Claims.key?_ne_none_of_all hclaims he hshape)
    | error error =>
      obtain ⟨e, _, shape, _, _, rfl⟩ := Claims.all_eq_error hpolicy hclaims
      exact ⟨e.source, shape.render, bind_eq_error.2 (.inl hclaims)⟩

namespace Description

/-- Every entry has a signature that reads and a position for each of its defaults. -/
def Plannable (d : Description β) : Prop :=
  ∀ declared ∈ d.toList, ∃ s, Signature.read (declared.2.signatureText declared.1) = .ok s ∧
    declared.2.defaults.length ≤ s.length

/-- The shapes of the planned entries are the keys that `keys` gives for the declared signatures. -/
def ClaimedAs (d : Description β) (keys : Signature → List Key)
    (planned : List (PlannedEntry β)) : Prop :=
  List.Forall₂ (fun declared e =>
    ∃ s, Signature.read (declared.2.signatureText declared.1) = .ok s ∧
      e.shapes.map Shape.key? = (keys s).map some) d.toList planned

/-- What the stages make of the declared entries. -/
def PlannedBehind (d : Description β) (stages : List (Stage β)) (planned : List (PlannedEntry β)) :
    Prop :=
  List.Forall₂ (fun declared e =>
    ∃ s whole, Signature.read (declared.2.signatureText declared.1) = .ok s ∧
      e.Behind stages s whole) d.toList planned

/-- Planning succeeds exactly for such descriptions. -/
theorem exists_plan_iff {d : Description β} : (∃ parsed, d.plan = .ok parsed) ↔ d.Plannable := by
  rw [plan, exists_mapM_eq_ok_iff]
  simp only [Entry.exists_plan_iff]
  constructor
  · intro h declared hdeclared
    obtain ⟨position, hlt, rfl⟩ := List.mem_iff_getElem.1 hdeclared
    exact List.forall_mem_zipIdx.1 h position hlt
  · intro h numbered hnumbered
    exact h numbered.1 (List.fst_mem_of_mem_zipIdx hnumbered)

/-- Stages of the standard kinds plan every description whose entries can be planned. -/
theorem Plannable.exists_plannedBehind {engine : Engine β} {d : Description β} (h : d.Plannable)
    (hstages : ∀ stage ∈ engine.stages, stage ∈ Stage.standard) :
    ∃ planned, engine.plan d = .ok planned ∧ d.PlannedBehind engine.stages planned := by
  obtain ⟨parsed, hparsed⟩ := exists_plan_iff.2 h
  refine ⟨_, bind_eq_ok.2 ⟨parsed, hparsed, Stage.runAll_eq_map hstages parsed⟩, ?_⟩
  rw [PlannedBehind, List.forall₂_map_right_iff]
  refine (plan_eq_ok hparsed).imp ?_
  rintro ⟨source, entry⟩ e ⟨order, s, hread, rfl⟩
  obtain ⟨whole, hbehind⟩ := (PlannedEntry.behind_fresh order source s entry.target
    entry.defaults).onEntryAll hstages
  exact ⟨s, whole, hread, hbehind⟩

namespace PlannedBehind
variable {d : Description β} {stages : List (Stage β)} {planned : List (PlannedEntry β)}

theorem exists_key?_eq_none_iff (h : d.PlannedBehind stages planned) :
    (∃ e ∈ planned, ∃ shape ∈ e.shapes, Shape.key? shape = none) ↔
      (∃ declared ∈ d.toList, ∃ s, Signature.read (declared.2.signatureText declared.1) = .ok s ∧
        s.hasAlternatives = true) ∧ ¬Stage.ExpandsAtEnd stages := by
  unfold PlannedBehind at h
  generalize d.toList = declared at h
  induction h with
  | nil => simp
  | @cons first e rest planned hfirst _ ih =>
    obtain ⟨s, whole, hread, hbehind⟩ := hfirst
    have hs := Signature.optionalLast_of_read hread
    rw [List.exists_mem_cons_iff, List.exists_mem_cons_iff, or_and_right, ih,
      hbehind.exists_key?_eq_none_iff hs, hread]
    simp

/-- Where every shape has a key, the entries claim the keys of what the stages left whole. -/
theorem claimedAs {keys : Signature → List Key} (h : d.PlannedBehind stages planned)
    (hkeys : ¬∃ e ∈ planned, ∃ shape ∈ e.shapes, Shape.key? shape = none)
    (hwhole : ∀ {s whole} {e : PlannedEntry β}, e.Behind stages s whole →
      whole.flatMap Shape.keys = keys s) : d.ClaimedAs keys planned := by
  unfold PlannedBehind at h
  unfold ClaimedAs
  generalize d.toList = declared at h ⊢
  induction h with
  | nil => exact .nil
  | @cons first e rest planned hfirst _ ih =>
    rw [List.exists_mem_cons_iff, not_or] at hkeys
    obtain ⟨s, whole, hread, hbehind⟩ := hfirst
    refine .cons ⟨s, hread, ?_⟩ (ih hkeys.2)
    rw [← hwhole hbehind]
    exact hbehind.map_key?_shapes (fun shape hshape hnone => hkeys.1 ⟨shape, hshape, hnone⟩)

theorem claimedAs_expand (h : d.PlannedBehind stages planned)
    (hkeys : ¬∃ e ∈ planned, ∃ shape ∈ e.shapes, Shape.key? shape = none)
    (hgroups : .expandOptionalGroups ∈ stages) : d.ClaimedAs Signature.expand planned := by
  refine h.claimedAs hkeys ?_
  intro s whole e hbehind
  rw [hbehind.grouped hgroups, Signature.expand]

theorem claimedAs_fullShape (h : d.PlannedBehind stages planned)
    (hkeys : ¬∃ e ∈ planned, ∃ shape ∈ e.shapes, Shape.key? shape = none)
    (hgroups : .expandOptionalGroups ∉ stages) :
    d.ClaimedAs (fun s => Shape.keys s.fullShape) planned := by
  refine h.claimedAs hkeys ?_
  intro s whole e hbehind
  simp [hbehind.ungrouped hgroups]

end PlannedBehind

end Description

/-- STAGES: whatever list of standard stages an engine has, building fails for a shape that still
holds alternatives exactly if some signature has alternatives and they are not expanded behind the
last expansion of optional groups. Otherwise an entry claims what its signature expands to if
optional groups are expanded, and the keys of its full shape if they are not. -/
theorem Engine.buildTable_of_standardStages {engine : Engine β} {d : Description β}
    (hstages : ∀ stage ∈ engine.stages, stage ∈ Stage.standard) (hd : d.Plannable)
    (hpolicy : engine.config.collisionPolicy ≠ .reject) :
    ((∃ source shape, engine.buildTable d = .error (.unexpandedShape source shape)) ↔
      (∃ declared ∈ d.toList, ∃ s, Signature.read (declared.2.signatureText declared.1) = .ok s ∧
        s.hasAlternatives = true) ∧ ¬Stage.ExpandsAtEnd engine.stages) ∧
    (∀ t, engine.buildTable d = .ok t → ∃ planned, engine.plan d = .ok planned ∧
      (.expandOptionalGroups ∈ engine.stages → d.ClaimedAs Signature.expand planned) ∧
      (.expandOptionalGroups ∉ engine.stages →
        d.ClaimedAs (fun s => Shape.keys s.fullShape) planned) ∧
      t.keys.keys = (planned.flatMap PlannedEntry.claimedKeys).eraseDups) ∧
    (engine.stages = Stage.standard →
      (∀ source shape, engine.buildTable d ≠ .error (.unexpandedShape source shape)) ∧
      ∃ planned, engine.plan d = .ok planned ∧ d.ClaimedAs Signature.expand planned) := by
  obtain ⟨planned, hplan, hplanned⟩ := hd.exists_plannedBehind hstages
  have hbuild : engine.buildTable d =
      ShapeDispatch.buildTable engine.classifier engine.config planned := by
    rw [buildTable, hplan]
    rfl
  have hunexpanded := buildTable_unexpanded_iff engine.classifier planned hpolicy
  rw [hbuild]
  refine ⟨hunexpanded.trans hplanned.exists_key?_eq_none_iff, ?_, ?_⟩
  · intro t ht
    have hkeys : ¬∃ e ∈ planned, ∃ shape ∈ e.shapes, Shape.key? shape = none := by
      rw [← hunexpanded, ht]
      rintro ⟨_, _, herror⟩
      cases herror
    obtain ⟨claims, hclaims, hbuilt⟩ := buildTable_eq_ok ht
    refine ⟨planned, hplan, hplanned.claimedAs_expand hkeys, hplanned.claimedAs_fullShape hkeys, ?_⟩
    rw [hbuilt.keys_eq, (Claims.settled_all hclaims).keys_eq, keys_claimSequence]
  · intro hstandard
    have hkeys : ¬∃ e ∈ planned, ∃ shape ∈ e.shapes, Shape.key? shape = none := by
      rw [hplanned.exists_key?_eq_none_iff, hstandard]
      exact fun h => h.2 Stage.expandsAtEnd_standard
    refine ⟨?_, planned, hplan, hplanned.claimedAs_expand hkeys ?_⟩
    · intro source shape herror
      exact hkeys (hunexpanded.1 ⟨source, shape, herror⟩)
    · rw [hstandard]
      simp [Stage.standard]

/-- A signature with both alternatives and an optional group. -/
def alternating : Description Unit :=
  Description.empty.insert "[string|array] [number]?" (.method ⟨"either", 0, [], ()⟩)

/-- The engine with these stages and standard otherwise. -/
def Engine.withStages (stages : List (Stage Unit)) : Engine Unit := ⟨.standard, .default, stages⟩

/-- Optional groups that are expanded last bring the alternatives back; where they are not expanded,
a call has to supply them. -/
theorem Engine.buildTable_alternating :
    (∃ source shape, (withStages [.expandAlternatives, .expandOptionalGroups]).buildTable
      alternating = .error (.unexpandedShape source shape)) ∧
    ∃ t, (withStages [.expandAlternatives, .bindNames]).buildTable alternating = .ok t ∧
      t.keys.keys = [⟨["string", "number"]⟩, ⟨["array", "number"]⟩] ∧
      ∃ planned, (withStages [.expandAlternatives, .bindNames]).plan alternating = .ok planned ∧
        alternating.ClaimedAs (fun s => Shape.keys s.fullShape) planned := by
  obtain ⟨s, hread, halternatives⟩ : ∃ s, Signature.read "[string|array] [number]?" = .ok s ∧
      s.hasAlternatives = true := exists_ok_of_toOption (by decide +kernel)
  have hd : alternating.Plannable := by
    intro declared hdeclared
    obtain rfl := List.mem_singleton.1 hdeclared
    exact ⟨s, hread, Nat.zero_le _⟩
  constructor
  · refine (buildTable_of_standardStages ?_ hd (by decide)).1.2
      ⟨⟨_, List.mem_singleton_self _, s, hread, halternatives⟩, ?_⟩
    · simp [withStages, Stage.standard]
    · change ¬Stage.ExpandsAtEnd ([.expandAlternatives] ++ [.expandOptionalGroups])
      rw [Stage.expandsAtEnd_concat]
      simp
  · obtain ⟨t, ht, hkeys⟩ : ∃ t, (withStages [.expandAlternatives, .bindNames]).buildTable
        alternating = .ok t ∧ t.keys.keys = [⟨["string", "number"]⟩, ⟨["array", "number"]⟩] :=
      exists_ok_of_toOption (by decide +kernel)
    obtain ⟨planned, hplan, _, hclaims, _⟩ :=
      (buildTable_of_standardStages (by simp [withStages, Stage.standard]) hd (by decide)).2.1 t ht
    exact ⟨t, ht, hkeys, planned, hplan, hclaims (by simp [withStages])⟩

end ShapeDispatch
