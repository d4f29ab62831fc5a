import ShapeDispatch.Proofs.Stages
import ShapeDispatch.Proofs.Tidying

/-!
Where synonyms are replaced does not matter. Replacing tokens first merges the alternatives that
become the same; replacing them behind the expansion of alternatives leaves repeated shapes instead.
So a synonym stage does the same, up to repeated shapes, wherever it stands among standard stages
(`Stage.map_runAll_insertIdx`), and the compiled tables agree (`Engine.compile_insertSynonyms`).
-/

namespace ShapeDispatch
variable {β : Type}

namespace Synonyms

/-- Synonyms are not chained if nothing that another token becomes is replaced in turn. -/
theorem chained?_eq_none_iff {synonyms : Synonyms} : synonyms.chained? = none ↔
    ∀ before after, synonyms.find? before = some after → before ≠ after →
      synonyms.find? after = none := by
  rw [chained?, List.find?_eq_none]
  constructor
  · intro h before after hfind hne
    simpa [hne, OrderedMap.contains] using h _ (OrderedMap.find?_eq_some_iff.1 hfind)
  · rintro h ⟨before, after⟩ hmem hchained
    obtain ⟨hne, hfound⟩ : before ≠ after ∧ synonyms.contains after = true := by
      simpa using hchained
    rw [OrderedMap.contains, h before after (OrderedMap.find?_eq_some_iff.2 hmem) hne] at hfound
    cases hfound

/-- Unless synonyms are chained, what a token becomes is not replaced again. -/
theorem replace_replace {synonyms : Synonyms} (h : synonyms.chained? = none) (token : String) :
    synonyms.replace (synonyms.replace token) = synonyms.replace token := by
  cases hfind : synonyms.find? token with
  | none =>
    have hkept : synonyms.replace token = token := by rw [replace, hfind, Option.getD_none]
    rw [hkept, hkept]
  | some other =>
    have hreplaced : synonyms.replace token = other := by rw [replace, hfind, Option.getD_some]
    rw [hreplaced]
    by_cases hsame : token = other
    · rw [← hsame, hreplaced, hsame]
    · rw [replace, chained?_eq_none_iff.1 h token other hfind hsame, Option.getD_none]

variable (synonyms : Synonyms)

theorem choices_replaceType (type : TypeToken) :
    (synonyms.replaceType type).choices = (type.choices.map synonyms.replace).eraseDups := by
  cases type with
  | single token => rfl
  | alternatives tokens =>
    rw [TypeToken.choices, replaceType]
    split
    · next heq => rw [heq, TypeToken.choices]
    · rfl

/-- Replacing tokens may merge choices of a shape; the others keep their order. -/
theorem choices_replaceShape : ∀ shape : Shape,
    (Shape.choices (synonyms.replaceShape shape)).eraseDups =
      ((Shape.choices shape).map (List.map synonyms.replace)).eraseDups
  | [] => rfl
  | type :: shape => by
    have ih := choices_replaceShape shape
    have hput : ∀ token, ((Shape.choices (synonyms.replaceShape shape)).map
        (fun tokens => token :: tokens)).eraseDups =
          (((Shape.choices shape).map (List.map synonyms.replace)).map
            (fun tokens => token :: tokens)).eraseDups :=
      fun token => eraseDups_map_congr ih
    calc (Shape.choices (synonyms.replaceShape (type :: shape))).eraseDups
        = ((type.choices.map synonyms.replace).eraseDups.flatMap (fun token =>
            (Shape.choices (synonyms.replaceShape shape)).map
              (fun tokens => token :: tokens))).eraseDups := by
          rw [← choices_replaceType]
          rfl
      _ = ((type.choices.map synonyms.replace).flatMap (fun token =>
            ((Shape.choices shape).map (List.map synonyms.replace)).map
              (fun tokens => token :: tokens))).eraseDups := by
          rw [eraseDups_flatMap_eraseDups]
          exact eraseDups_flatMap_congr_right (fun token _ => hput token)
      _ = ((Shape.choices (type :: shape)).map (List.map synonyms.replace)).eraseDups := by
          simp [Shape.choices, List.flatMap_map, List.map_flatMap, Function.comp_def]

/-- What becomes of a key. -/
def replaceKey (key : Key) : Key := ⟨key.tokens.map synonyms.replace⟩

theorem replaceShape_ofKey (key : Key) :
    synonyms.replaceShape (Shape.ofKey key) = Shape.ofKey (synonyms.replaceKey key) := by
  simp [replaceShape, Shape.ofKey, replaceType, replaceKey]

/-- Up to repetitions, it is the same whether tokens are replaced in a shape or in its keys. -/
theorem expanded_replaceShape (shape : Shape) :
    ((Shape.keys (synonyms.replaceShape shape)).map Shape.ofKey).eraseDups =
      (((Shape.keys shape).map Shape.ofKey).map synonyms.replaceShape).eraseDups := by
  have hchoices := eraseDups_map_congr (f := fun tokens => Shape.ofKey ⟨tokens⟩)
    (choices_replaceShape synonyms shape)
  simpa [Shape.keys, Function.comp_def, replaceShape_ofKey, replaceKey] using hchoices

theorem paramNames_replaceSignature (s : Signature) :
    (synonyms.replaceSignature s).paramNames = s.paramNames := by
  unfold Signature.paramNames replaceSignature
  cases s.projection with
  | some names => rfl
  | none =>
    simp [Signature.params, List.flatMap_map, List.filterMap_flatMap, List.filterMap_map,
      Function.comp_def, replaceGroup, replaceParameter]

theorem types_replaceGroup (g : Group) :
    (synonyms.replaceGroup g).types = synonyms.replaceShape g.types := by
  simp [replaceGroup, Group.types, replaceShape, replaceParameter, Function.comp_def]

theorem types_replaceGroups (groups : List Group) :
    (groups.map synonyms.replaceGroup).flatMap Group.types =
      synonyms.replaceShape (groups.flatMap Group.types) := by
  simp only [List.flatMap_map, types_replaceGroup]
  rw [replaceShape, List.map_flatMap]
  rfl

theorem shapesBehind_replaceGroups (groups : List Group) (before : Shape) :
    Signature.shapesBehind (synonyms.replaceShape before) (groups.map synonyms.replaceGroup) =
      (Signature.shapesBehind before groups).map synonyms.replaceShape := by
  induction groups generalizing before with
  | nil => rfl
  | cons g groups ih =>
    have hhere : synonyms.replaceShape before ++ (synonyms.replaceGroup g).types =
        synonyms.replaceShape (before ++ g.types) := by
      rw [types_replaceGroup, replaceShape, replaceShape, replaceShape, List.map_append]
    have hoptional : (synonyms.replaceGroup g).optional = g.optional := rfl
    simp only [List.map_cons, Signature.shapesBehind, hhere, hoptional, ih]
    split
    · rfl
    · rfl

theorem shapes_replaceSignature (s : Signature) :
    (synonyms.replaceSignature s).shapes = s.shapes.map synonyms.replaceShape := by
  have hoptional : (fun g : Group => !g.optional) ∘ synonyms.replaceGroup =
      (fun g => !g.optional) := rfl
  have hgroups : (synonyms.replaceSignature s).groups = s.groups.map synonyms.replaceGroup := rfl
  rw [Signature.shapes, Signature.shapes, Signature.mandatory, hgroups, List.takeWhile_map,
    List.dropWhile_map, hoptional, types_replaceGroups, shapesBehind_replaceGroups]
  rfl

end Synonyms

namespace PlannedEntry

theorem tidy_shapes_congr (e : PlannedEntry β) {shapes shapes' : List Shape}
    (h : shapes.eraseDups = shapes'.eraseDups) :
    ({ e with shapes := shapes } : PlannedEntry β).tidy =
      ({ e with shapes := shapes' } : PlannedEntry β).tidy := by
  rw [tidy, tidy, h]

end PlannedEntry

namespace Stage

/-- A stage does not tell entries apart that differ in repeated shapes. -/
theorem tidy_onEntry_tidy {stage : Stage β} (h : stage ∈ standard) (e : PlannedEntry β) :
    (stage.onEntry e.tidy).tidy = (stage.onEntry e).tidy := by
  obtain rfl | rfl | rfl := mem_standard_iff.1 h
  · exact e.bindNames.tidy_shapes_congr (eraseDups_eraseDups e.shapes)
  · rfl
  · exact e.tidy_shapes_congr (eraseDups_flatMap_eraseDups _ e.shapes)

theorem tidy_onEntryAll_tidy {stages : List (Stage β)} (h : ∀ stage ∈ stages, stage ∈ standard)
    (e : PlannedEntry β) : (onEntryAll stages e.tidy).tidy = (onEntryAll stages e).tidy := by
  induction stages generalizing e with
  | nil => exact e.tidy_shapes_congr (eraseDups_eraseDups e.shapes)
  | cons stage stages ih =>
    obtain ⟨hstage, hrest⟩ := List.forall_mem_cons.1 h
    calc (onEntryAll stages (stage.onEntry e.tidy)).tidy
        = (onEntryAll stages (stage.onEntry e.tidy).tidy).tidy := (ih hrest _).symm
      _ = (onEntryAll stages (stage.onEntry e).tidy).tidy := by
          rw [tidy_onEntry_tidy hstage]
      _ = (onEntryAll stages (stage.onEntry e)).tidy := ih hrest _

/-- Replacing tokens before a stage and behind it leaves the same, up to repeated shapes. -/
theorem tidy_onEntry_replaceEntry {stage : Stage β} (h : stage ∈ standard) (synonyms : Synonyms)
    (e : PlannedEntry β) : (stage.onEntry (synonyms.replaceEntry e)).tidy =
      (synonyms.replaceEntry (stage.onEntry e)).tidy := by
  obtain rfl | rfl | rfl := mem_standard_iff.1 h
  · simp [onEntry, PlannedEntry.bindNames, Synonyms.replaceEntry,
      Synonyms.paramNames_replaceSignature]
  · simp [onEntry, PlannedEntry.expandOptionalGroups, Synonyms.replaceEntry,
      Synonyms.shapes_replaceSignature]
  · refine (synonyms.replaceEntry e).tidy_shapes_congr ?_
    change ((e.shapes.map synonyms.replaceShape).flatMap _).eraseDups =
      ((e.shapes.flatMap _).map synonyms.replaceShape).eraseDups
    rw [List.flatMap_map, List.map_flatMap]
    exact eraseDups_flatMap_congr_right (fun shape _ => synonyms.expanded_replaceShape shape)

theorem tidy_onEntryAll_replaceEntry {stages : List (Stage β)}
    (h : ∀ stage ∈ stages, stage ∈ standard) (synonyms : Synonyms) (e : PlannedEntry β) :
    (onEntryAll stages (synonyms.replaceEntry e)).tidy =
      (synonyms.replaceEntry (onEntryAll stages e)).tidy := by
  induction stages generalizing e with
  | nil => rfl
  | cons stage stages ih =>
    obtain ⟨hstage, hrest⟩ := List.forall_mem_cons.1 h
    calc (onEntryAll stages (stage.onEntry (synonyms.replaceEntry e))).tidy
        = (onEntryAll stages (stage.onEntry (synonyms.replaceEntry e)).tidy).tidy :=
          (tidy_onEntryAll_tidy hrest _).symm
      _ = (onEntryAll stages (synonyms.replaceEntry (stage.onEntry e)).tidy).tidy := by
          rw [tidy_onEntry_replaceEntry hstage]
      _ = (onEntryAll stages (synonyms.replaceEntry (stage.onEntry e))).tidy :=
          tidy_onEntryAll_tidy hrest _
      _ = (synonyms.replaceEntry (onEntryAll stages (stage.onEntry e))).tidy := ih hrest _

theorem insertIdx_eq (stage : Stage β) : ∀ {stages : List (Stage β)} {i : Nat},
    i ≤ stages.length → stages.insertIdx i stage = stages.take i ++ stage :: stages.drop i
  | _, 0, _ => rfl
  | first :: stages, i + 1, hi => by
    rw [List.insertIdx_succ_cons, insertIdx_eq stage (Nat.le_of_succ_le_succ hi)]
    rfl

theorem runAll_append (before behind : List (Stage β)) (entries : List (PlannedEntry β)) :
    runAll (before ++ behind) entries = runAll before entries >>= runAll behind :=
  List.foldlM_append

theorem onEntryAll_take_drop (stages : List (Stage β)) (i : Nat) (e : PlannedEntry β) :
    onEntryAll (stages.drop i) (onEntryAll (stages.take i) e) = onEntryAll stages e := by
  rw [onEntryAll, onEntryAll, ← List.foldl_append, List.take_append_drop]
  rfl

/-- A synonym stage may as well come last: the entries are the same, up to repeated shapes. -/
theorem map_runAll_insertIdx {stages : List (Stage β)} (h : ∀ stage ∈ stages, stage ∈ standard)
    (synonyms : Synonyms) {i : Nat} (hi : i ≤ stages.length) (entries : List (PlannedEntry β)) :
    (runAll (stages.insertIdx i (.tokenSynonyms synonyms)) entries).map
        (List.map PlannedEntry.tidy) =
      ((tokenSynonyms synonyms).run (entries.map (onEntryAll stages))).map
        (List.map PlannedEntry.tidy) := by
  have hbefore : ∀ stage ∈ stages.take i, stage ∈ standard :=
    fun stage hstage => h stage (List.mem_of_mem_take hstage)
  have hbehind : ∀ stage ∈ stages.drop i, stage ∈ standard :=
    fun stage hstage => h stage (List.mem_of_mem_drop hstage)
  rw [insertIdx_eq _ hi, runAll_append, runAll_eq_map hbefore]
  change ((tokenSynonyms synonyms).run (entries.map (onEntryAll (stages.take i))) >>=
    runAll (stages.drop i)).map _ = _
  simp only [run]
  cases synonyms.chained? with
  | some pair => rfl
  | none =>
    change (runAll (stages.drop i) ((entries.map _).map synonyms.replaceEntry)).map _ = _
    rw [runAll_eq_map hbehind]
    refine congrArg Except.ok ?_
    simp only [List.map_map]
    refine List.map_congr_left (fun e _ => ?_)
    simp only [Function.comp_apply]
    rw [tidy_onEntryAll_replaceEntry hbehind, onEntryAll_take_drop]

end Stage

namespace Engine
variable {engine : Engine β}

/-- The engine with a further stage at a position of its list. -/
def insertStage (engine : Engine β) (i : Nat) (stage : Stage β) : Engine β :=
  { engine with stages := engine.stages.insertIdx i stage }

theorem map_plan_insertStage (h : ∀ stage ∈ engine.stages, stage ∈ Stage.standard)
    (synonyms : Synonyms) {i : Nat} (hi : i ≤ engine.stages.length) (d : Description β) :
    ((engine.insertStage i (.tokenSynonyms synonyms)).plan d).map (List.map PlannedEntry.tidy) =
      (d.plan >>= fun entries => (Stage.tokenSynonyms synonyms).run
        (entries.map (Stage.onEntryAll engine.stages))).map (List.map PlannedEntry.tidy) := by
  rw [plan]
  cases d.plan with
  | error error => rfl
  | ok entries => exact Stage.map_runAll_insertIdx h synonyms hi entries

theorem map_buildTable_insertStage (h : ∀ stage ∈ engine.stages, stage ∈ Stage.standard)
    (synonyms : Synonyms) {i j : Nat} (hi : i ≤ engine.stages.length)
    (hj : j ≤ engine.stages.length) (d : Description β) :
    ((engine.insertStage i (.tokenSynonyms synonyms)).buildTable d).map
        DispatchTable.withoutCollisions =
      ((engine.insertStage j (.tokenSynonyms synonyms)).buildTable d).map
        DispatchTable.withoutCollisions := by
  have hplan := (map_plan_insertStage h synonyms hi d).trans
    (map_plan_insertStage h synonyms hj d).symm
  exact map_bind_congr hplan
    (fun _ _ hplanned => map_buildTable_congr hplanned engine.classifier engine.config)

/-- SYNONYMS: wherever a synonym stage stands among standard stages, compilation fails with the same
error or makes a table with the same keys, in the same order and with the same slots, and the same
implementations. -/
theorem compile_insertSynonyms (hstages : ∀ stage ∈ engine.stages, stage ∈ Stage.standard)
    (synonyms : Synonyms) {i j : Nat} (hi : i ≤ engine.stages.length)
    (hj : j ≤ engine.stages.length) (d : Description β) :
    (∃ error, (engine.insertStage i (.tokenSynonyms synonyms)).compile d = .error error ∧
      (engine.insertStage j (.tokenSynonyms synonyms)).compile d = .error error) ∨
    ∃ r r', (engine.insertStage i (.tokenSynonyms synonyms)).compile d = .ok r ∧
      (engine.insertStage j (.tokenSynonyms synonyms)).compile d = .ok r' ∧
      r.table.keys = r'.table.keys ∧ r.table.entries = r'.table.entries ∧
      r.table.padded = r'.table.padded ∧ r.classifier = r'.classifier := by
  obtain ⟨error, herror, herror'⟩ | ⟨t, t', ht, ht', hsame⟩ :=
    cases_of_map_eq (map_buildTable_insertStage hstages synonyms hi hj d)
  · exact .inl ⟨error, bind_eq_error.2 (.inl herror), bind_eq_error.2 (.inl herror')⟩
  · refine .inr ⟨_, _, bind_eq_ok.2 ⟨t, ht, rfl⟩, bind_eq_ok.2 ⟨t', ht', rfl⟩, ?_, ?_, ?_, rfl⟩
    · exact (congrArg DispatchTable.keys hsame :)
    · exact (congrArg DispatchTable.entries hsame :)
    · exact (congrArg DispatchTable.padded hsame :)

/-- Lists are arrays. -/
def lists : Synonyms := .ofPairs [("list", "array")]

/-- A signature whose alternatives become the same, and another one for one of its keys. -/
def listed : Description Unit :=
  (Description.empty.insert "[list|array] [number]?" (.method ⟨"either", 0, [], ()⟩)).insert
    "[array]" (.method ⟨"array", 0, [], ()⟩)

theorem compile_insertSynonyms_listed : ∃ r r',
    (standard.insertStage 0 (.tokenSynonyms lists)).compile listed = .ok r ∧
    (standard.insertStage 3 (.tokenSynonyms lists)).compile listed = .ok r' ∧
    r.table.keys.toList = [(⟨["array"]⟩, ⟨1, "[array]"⟩),
      (⟨["array", "number"]⟩, ⟨0, "[list|array] [number]?"⟩)] ∧
    r.table.keys = r'.table.keys ∧ r.table.entries = r'.table.entries := by
  obtain ⟨r, hr, hkeys⟩ : ∃ r, (standard.insertStage 0 (.tokenSynonyms lists)).compile listed =
      .ok r ∧ r.table.keys.toList = [(⟨["array"]⟩, ⟨1, "[array]"⟩),
        (⟨["array", "number"]⟩, ⟨0, "[list|array] [number]?"⟩)] :=
    exists_ok_of_toOption (by decide +kernel)
  have hfirst : 0 ≤ (standard : Engine Unit).stages.length := Nat.zero_le _
  have hlast : 3 ≤ (standard : Engine Unit).stages.length := Nat.le_refl _
  obtain ⟨error, herror, _⟩ | ⟨r₀, r', hr₀, hr', hsame, hentries, _⟩ :=
    compile_insertSynonyms (fun _ h => h) lists hfirst hlast listed
  · rw [hr] at herror
    cases herror
  · rw [hr] at hr₀
    cases hr₀
    exact ⟨r, r', hr, hr', hkeys, hsame, hentries⟩

end Engine

end ShapeDispatch
