import ShapeDispatch.Proofs.Aliases
import ShapeDispatch.Proofs.Synonyms

/-!
Aliases under synonyms. A synonym stage replaces the tokens of signatures and shapes, so the table holds
what becomes of the keys; the targets of aliases are looked up as they are spelled. So an alias loses
its target exactly if it finds it by a key with a token that is replaced (`Engine.compile_orphans`).
-/

namespace ShapeDispatch
variable {β : Type}

namespace Synonyms
variable {synonyms : Synonyms}

theorem replaceKey_replaceKey (h : synonyms.chained? = none) (key : Key) :
    synonyms.replaceKey (synonyms.replaceKey key) = synonyms.replaceKey key := by
  simp [replaceKey, replace_replace h]

theorem replaceKey_eq_self_iff {key : Key} :
    synonyms.replaceKey key = key ↔ ∀ token ∈ key.tokens, synonyms.replace token = token := by
  obtain ⟨tokens⟩ := key
  simpa [replaceKey] using List.map_inj_left (f := synonyms.replace) (g := id) (l := tokens)

end Synonyms

/-! ### Claims of what the keys become -/

theorem PlannedEntry.StandsFor.shapes_replaceEntry {e : PlannedEntry β} {source : String}
    {entry : Entry β} (h : e.StandsFor source entry) (synonyms : Synonyms) :
    (synonyms.replaceEntry e).shapes = (e.claimedKeys.map synonyms.replaceKey).map Shape.ofKey := by
  rw [Synonyms.replaceEntry, h.shapes_eq, h.claimedKeys_eq, List.map_map, List.map_map]
  exact List.map_congr_left (fun key _ => synonyms.replaceShape_ofKey key)

theorem PlannedEntry.StandsFor.claimedKeys_replaceEntry {e : PlannedEntry β} {source : String}
    {entry : Entry β} (h : e.StandsFor source entry) (synonyms : Synonyms) :
    (synonyms.replaceEntry e).claimedKeys = e.claimedKeys.map synonyms.replaceKey := by
  rw [claimedKeys, h.shapes_replaceEntry, List.filterMap_map]
  simp [Shape.key?_ofKey]

namespace Description.PlannedAs
variable {d : Description β} {planned : List (PlannedEntry β)} {policy : CollisionPolicy}
  (h : d.PlannedAs planned) (synonyms : Synonyms)
include h

theorem exists_all_replaced (hpolicy : policy ≠ .reject) :
    ∃ claims, Claims.all policy (planned.map synonyms.replaceEntry) = .ok claims := by
  refine Claims.exists_all_iff.2 ⟨?_, fun hreject => absurd hreject hpolicy⟩
  intro e' he' shape hshape
  obtain ⟨e, he, rfl⟩ := List.mem_map.1 he'
  obtain ⟨_, _, hstands⟩ := h.find?_source he
  rw [hstands.shapes_replaceEntry] at hshape
  obtain ⟨key, _, rfl⟩ := List.mem_map.1 hshape
  rw [Shape.key?_ofKey]
  exact Option.some_ne_none key

/-- The keys that are owned behind the replacement are what the owned keys become. -/
theorem mem_owners_replaced {claims : Claims planned}
    {claims' : Claims (planned.map synonyms.replaceEntry)}
    (hclaims : Claims.all policy planned = .ok claims)
    (hclaims' : Claims.all policy (planned.map synonyms.replaceEntry) = .ok claims') {key : Key} :
    key ∈ claims'.owners.keys ↔ ∃ before ∈ claims.owners.keys, synonyms.replaceKey before = key := by
  have hkeys : (planned.map synonyms.replaceEntry).flatMap PlannedEntry.claimedKeys =
      (planned.flatMap PlannedEntry.claimedKeys).map synonyms.replaceKey := by
    rw [List.flatMap_map, List.map_flatMap]
    refine List.flatMap_congr (fun e he => ?_)
    obtain ⟨_, _, hstands⟩ := h.find?_source he
    exact hstands.claimedKeys_replaceEntry synonyms
  rw [(Claims.settled_all hclaims').mem_keys_iff, keys_claimSequence, hkeys, List.mem_map]
  simp only [(Claims.settled_all hclaims).mem_keys_iff, keys_claimSequence]

end Description.PlannedAs

/-! ### Targets of aliases -/

/-- No entry has the text, and it spells a key with a token that is replaced. -/
def Description.Loses (d : Description β) (synonyms : Synonyms) (text : String) : Prop :=
  d.find? text = none ∧ ∃ key, spelledKey? text = some key ∧
    ∃ token ∈ key.tokens, synonyms.replace token ≠ token

section
variable {d : Description β} {planned : List (PlannedEntry β)} {synonyms : Synonyms}
  {policy : CollisionPolicy} {claims : Claims planned}
  {claims' : Claims (planned.map synonyms.replaceEntry)}

theorem positionOf?_replaced (text : String) :
    positionOf? (planned.map synonyms.replaceEntry) text = none ↔ positionOf? planned text = none := by
  have houtline : (planned.map synonyms.replaceEntry).map PlannedEntry.outline =
      planned.map PlannedEntry.outline := by
    rw [List.map_map]
    rfl
  have hsame := map_positionOf?_congr houtline text
  rw [← Option.map_eq_none_iff, hsame, Option.map_eq_none_iff]

/-- A target that was found is lost exactly if it was found by a key with a token that is replaced. -/
theorem Description.PlannedAs.findTarget?_replaced (h : d.PlannedAs planned)
    (hunchained : synonyms.chained? = none) (hclaims : Claims.all policy planned = .ok claims)
    (hclaims' : Claims.all policy (planned.map synonyms.replaceEntry) = .ok claims')
    {text : String} {found : Position planned} (hfound : findTarget? claims.owners text = some found) :
    findTarget? claims'.owners text = none ↔ d.Loses synonyms text := by
  rw [findTarget?_eq_none_iff, positionOf?_replaced, h.positionOf?_eq_none]
  refine and_congr_right (fun hnone => ?_)
  -- without an entry of the text, it was found by the key that it spells
  have hposition : positionOf? planned text = none := h.positionOf?_eq_none.2 hnone
  rw [findTarget?, hposition] at hfound
  obtain ⟨key, hspelled, howner⟩ := Option.bind_eq_some_iff.1 hfound
  have hkey : key ∈ claims.owners.keys := by
    by_contra hmissing
    rw [OrderedMap.find?_eq_none_iff.2 hmissing] at howner
    cases howner
  have hkept : key ∈ claims'.owners.keys ↔ synonyms.replaceKey key = key := by
    rw [h.mem_owners_replaced synonyms hclaims hclaims']
    constructor
    · rintro ⟨before, _, rfl⟩
      exact Synonyms.replaceKey_replaceKey hunchained before
    · intro hsame
      exact ⟨key, hkey, hsame⟩
  have hlost : claims'.owners.find? key = none ↔
      ∃ token ∈ key.tokens, synonyms.replace token ≠ token := by
    rw [OrderedMap.find?_eq_none_iff, hkept, Synonyms.replaceKey_eq_self_iff]
    push Not
    rfl
  constructor
  · intro hmissing
    exact ⟨key, hspelled, hlost.1 (hmissing key hspelled)⟩
  · rintro ⟨key', hspelled', htoken⟩ other hother
    rw [hspelled] at hspelled' hother
    cases hspelled'
    cases hother
    exact hlost.2 htoken

end

/-- An alias whose target the replacement loses. -/
def Description.Orphaned (d : Description β) (synonyms : Synonyms) (source text : String) : Prop :=
  d.find? source = some (.aliasOf text) ∧ d.Loses synonyms text

theorem Entry.aliasOf_of_target {entry : Entry β} {text : String} (h : entry.target = .aliasOf text) :
    entry = .aliasOf text := by
  cases entry with
  | method _ => cases h
  | aliasOf _ => exact congrArg Entry.aliasOf (Target.aliasOf.inj h)
  | overload _ => cases h

namespace Description.PlannedAs
variable {d : Description β} {planned : List (PlannedEntry β)} {synonyms : Synonyms}
  {classifier : Classifier β} {config : EngineConfig} {t : DispatchTable β} {source text : String}
  (h : d.PlannedAs planned) (hpolicy : config.collisionPolicy ≠ .reject)
  (hunchained : synonyms.chained? = none) (hbuild : buildTable classifier config planned = .ok t)
include h hpolicy

/-- Behind the replacement building fails for aliases only. -/
theorem unresolved_of_replaced {error : CompileError}
    (herror : buildTable classifier config (planned.map synonyms.replaceEntry) = .error error) :
    ∃ e, error = .unresolved e := by
  obtain ⟨claims', hclaims'⟩ := h.exists_all_replaced synonyms hpolicy
  obtain ⟨_, e, he, _⟩ := (buildTable_eq_error_iff hclaims').1 herror
  exact ⟨e, he⟩

include hunchained hbuild

theorem orphaned_of_missing (hmissing : buildTable classifier config
    (planned.map synonyms.replaceEntry) = .error (.unresolved (.missingTarget source text))) :
    d.Orphaned synonyms source text := by
  obtain ⟨claims, hclaims, _⟩ := buildTable_eq_ok hbuild
  obtain ⟨claims', hclaims'⟩ := h.exists_all_replaced synonyms hpolicy
  obtain ⟨_, _, he, hchase, _⟩ := (buildTable_eq_error_iff hclaims').1 hmissing
  cases he
  obtain ⟨i', rfl, htarget, hnone⟩ := exists_of_chase_missing hchase
  obtain ⟨e, he, hreplaced⟩ := List.mem_map.1 (List.get_mem (planned.map synonyms.replaceEntry) i')
  rw [← hreplaced] at htarget ⊢
  have htarget : e.target = .aliasOf text := htarget
  obtain ⟨found, hfound⟩ := exists_target_of_buildTable hbuild hclaims he htarget
  obtain ⟨entry, hentry, hstands⟩ := h.find?_source he
  obtain rfl := Entry.aliasOf_of_target (hstands.target_eq.symm.trans htarget)
  exact ⟨hentry, (h.findTarget?_replaced hunchained hclaims hclaims' hfound).1 hnone⟩

theorem exists_unresolved_of_orphaned (horphaned : d.Orphaned synonyms source text) : ∃ e,
    buildTable classifier config (planned.map synonyms.replaceEntry) = .error (.unresolved e) := by
  obtain ⟨halias, hloses⟩ := horphaned
  obtain ⟨claims, hclaims, _⟩ := buildTable_eq_ok hbuild
  obtain ⟨claims', hclaims'⟩ := h.exists_all_replaced synonyms hpolicy
  obtain ⟨j, hstands⟩ := h.exists_of_find? halias
  have hj : planned.get j ∈ planned := List.get_mem planned j
  obtain ⟨found, hfound⟩ := exists_target_of_buildTable hbuild hclaims hj hstands.target_eq
  have hnone := (h.findTarget?_replaced hunchained hclaims hclaims' hfound).2 hloses
  cases hbuild' : buildTable classifier config (planned.map synonyms.replaceEntry) with
  | error error =>
    obtain ⟨e, rfl⟩ := h.unresolved_of_replaced hpolicy hbuild'
    exact ⟨e, rfl⟩
  | ok t' =>
    have htarget : (synonyms.replaceEntry (planned.get j)).target = .aliasOf text := hstands.target_eq
    obtain ⟨_, hfound'⟩ := exists_target_of_buildTable hbuild' hclaims' (List.mem_map_of_mem hj) htarget
    rw [hnone] at hfound'
    cases hfound'

end Description.PlannedAs

namespace Engine
variable {engine : Engine β} {d : Description β} {planned : List (PlannedEntry β)}
  {synonyms : Synonyms} {i : Nat} {error : CompileError}

theorem compile_eq_error_iff : engine.compile d = .error error ↔ engine.buildTable d = .error error := by
  rw [compile, bind_eq_error]
  refine or_iff_left ?_
  rintro ⟨_, _, h⟩
  cases h

/-- A synonym stage at the end replaces the tokens of what the other stages planned. -/
theorem plan_insertStage_length (hplan : engine.plan d = .ok planned)
    (hunchained : synonyms.chained? = none) :
    (engine.insertStage engine.stages.length (.tokenSynonyms synonyms)).plan d =
      .ok (planned.map synonyms.replaceEntry) := by
  obtain ⟨parsed, hparsed, hrun⟩ := bind_eq_ok.1 hplan
  refine bind_eq_ok.2 ⟨parsed, hparsed, ?_⟩
  rw [insertStage, Stage.insertIdx_eq _ (Nat.le_refl _), List.take_length, List.drop_length,
    Stage.runAll_append, hrun]
  change Stage.run (.tokenSynonyms synonyms) planned >>= _ = _
  rw [Stage.run, hunchained]
  rfl

/-- Wherever a synonym stage stands among standard stages, compilation fails as it does for the planned
entries with their tokens replaced. -/
theorem compile_insertStage_eq_error_iff (hstages : ∀ stage ∈ engine.stages, stage ∈ Stage.standard)
    (hplan : engine.plan d = .ok planned) (hunchained : synonyms.chained? = none)
    (hi : i ≤ engine.stages.length) :
    (engine.insertStage i (.tokenSynonyms synonyms)).compile d = .error error ↔
      ShapeDispatch.buildTable engine.classifier engine.config (planned.map synonyms.replaceEntry) =
        .error error := by
  have hlast : (engine.insertStage engine.stages.length (.tokenSynonyms synonyms)).buildTable d =
      ShapeDispatch.buildTable engine.classifier engine.config
        (planned.map synonyms.replaceEntry) := by
    rw [buildTable, plan_insertStage_length hplan hunchained]
    rfl
  rw [compile_eq_error_iff, ← hlast]
  obtain ⟨e, he, he'⟩ | ⟨t, t', ht, ht', _⟩ := cases_of_map_eq
    (map_buildTable_insertStage hstages synonyms hi (Nat.le_refl engine.stages.length) d)
  · rw [he, he']
  · rw [ht, ht']
    constructor
    · intro h
      cases h
    · intro h
      cases h

/-- ORPHANS: what compiles fails with a synonym stage among the standard ones only for its aliases. It
fails with a missing target only for an alias whose target is no entry's text and spells a key with a
token that is replaced, and with such an alias it always fails. -/
theorem compile_orphans {r : Resolver β} (hs : engine.stages = Stage.standard)
    (hpolicy : engine.config.collisionPolicy ≠ .reject) (h : engine.compile d = .ok r)
    (hunchained : synonyms.chained? = none) (hi : i ≤ engine.stages.length) :
    (∀ error, (engine.insertStage i (.tokenSynonyms synonyms)).compile d = .error error →
      ∃ e, error = .unresolved e) ∧
    (∀ source text, (engine.insertStage i (.tokenSynonyms synonyms)).compile d =
      .error (.unresolved (.missingTarget source text)) → d.Orphaned synonyms source text) ∧
    ∀ source text, d.Orphaned synonyms source text →
      ∃ e, (engine.insertStage i (.tokenSynonyms synonyms)).compile d = .error (.unresolved e) := by
  obtain ⟨_, planned, hplan, hbuild⟩ := compile_eq_ok_iff.1 h
  have hd := plan_standard hs hplan
  have hstages : ∀ stage ∈ engine.stages, stage ∈ Stage.standard := by
    rw [hs]
    exact fun _ hstage => hstage
  have herror : ∀ error, (engine.insertStage i (.tokenSynonyms synonyms)).compile d = .error error ↔
      ShapeDispatch.buildTable engine.classifier engine.config (planned.map synonyms.replaceEntry) =
        .error error :=
    fun _ => compile_insertStage_eq_error_iff hstages hplan hunchained hi
  refine ⟨fun error h => ?_, fun source text h => ?_, fun source text h => ?_⟩
  · exact hd.unresolved_of_replaced hpolicy ((herror error).1 h)
  · exact hd.orphaned_of_missing hpolicy hunchained hbuild ((herror _).1 h)
  · obtain ⟨e, he⟩ := hd.exists_unresolved_of_orphaned hpolicy hunchained hbuild h
    exact ⟨e, (herror _).2 he⟩

/-- An alias that finds its target by the key of a list. -/
def dated : Description Unit :=
  (Description.empty.insert "[list:items]" (.method ⟨"items", 0, [], ()⟩)).insert
    "[date]" (.aliasOf "[list]")

theorem compile_orphans_dated : ∃ r, standard.compile dated = .ok r ∧
    lists.chained? = none ∧ dated.Orphaned lists "[date]" "[list]" ∧
    ∃ e, (standard.insertStage 3 (.tokenSynonyms lists)).compile dated = .error (.unresolved e) := by
  obtain ⟨r, hr, _⟩ : ∃ r, standard.compile dated = .ok r ∧
      r.table.keys.keys = [⟨["list"]⟩, ⟨["date"]⟩] := exists_ok_of_toOption (by decide +kernel)
  have hunchained : lists.chained? = none := by decide +kernel
  have hmissing : (standard.insertStage 0 (.tokenSynonyms lists)).compile dated =
      .error (.unresolved (.missingTarget "[date]" "[list]")) :=
    failure?_eq_some.1 (by decide +kernel)
  have hfirst : 0 ≤ (standard : Engine Unit).stages.length := Nat.zero_le _
  have hlast : 3 ≤ (standard : Engine Unit).stages.length := Nat.le_refl _
  have horphaned := (compile_orphans rfl (by decide) hr hunchained hfirst).2.1 _ _ hmissing
  exact ⟨r, hr, hunchained, horphaned,
    (compile_orphans rfl (by decide) hr hunchained hlast).2.2 _ _ horphaned⟩

/-- What compiles may miss a target with a synonym stage at either end of the standard ones. -/
theorem compile_loses_target : (standard : Engine Unit).config.collisionPolicy = .lastDeclaredWins ∧
    (∃ r, standard.compile dated = .ok r ∧ r.table.keys.keys = [⟨["list"]⟩, ⟨["date"]⟩]) ∧
    lists.chained? = none ∧
    (standard.insertStage 0 (.tokenSynonyms lists)).compile dated =
      .error (.unresolved (.missingTarget "[date]" "[list]")) ∧
    (standard.insertStage 3 (.tokenSynonyms lists)).compile dated =
      .error (.unresolved (.missingTarget "[date]" "[list]")) := by
  refine ⟨rfl, exists_ok_of_toOption (by decide +kernel), by decide +kernel, ?_, ?_⟩
  · exact failure?_eq_some.1 (by decide +kernel)
  · exact failure?_eq_some.1 (by decide +kernel)

end Engine

end ShapeDispatch
