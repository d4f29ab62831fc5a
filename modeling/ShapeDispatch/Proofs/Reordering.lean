import Mathlib.Data.List.Perm.Basic
import ShapeDispatch.Proofs.Matching
import ShapeDispatch.Proofs.Padding
import ShapeDispatch.Proofs.Stages

/-!
The order of declarations. It matters only where it decides who owns a key: two descriptions with the
same entries compile alike as soon as the policies decide alike between every two entries and their
counterparts (`Reordered.exists_buildTable`, `Reordered.alike`). So where collisions are rejected
every order will do (`Engine.compile_perm`), and the first declaration wins in one order exactly where
the last one wins in the opposite order (`Engine.compile_reverse`).

An entry and its counterpart are found under the same source, which no two entries share.
-/

namespace ShapeDispatch
variable {β : Type}

/-- The entry without the position of its declaration. -/
def PlannedEntry.unordered (e : PlannedEntry β) : PlannedEntry β := { e with order := 0 }

/-- What a declared entry becomes behind the standard stages depends on its position in nothing but the
record of that position. -/
theorem PlannedEntry.StandsFor.unordered_eq {e e' : PlannedEntry β} {source : String}
    {entry : Entry β} (h : e.StandsFor source entry) (h' : e'.StandsFor source entry) :
    e.unordered = e'.unordered := by
  have hsignature : e.signature = e'.signature := Except.ok.inj (h.read.symm.trans h'.read)
  rw [unordered, unordered, h.source_eq, h'.source_eq, h.target_eq, h'.target_eq, h.defaults_eq,
    h'.defaults_eq, h.names_eq, h'.names_eq, h.shapes_eq, h'.shapes_eq, hsignature]

/-- The text under which the entry at a position was declared. -/
def sourceAt (planned : List (PlannedEntry β)) (i : Position planned) : String :=
  (planned.get i).source

theorem getElem?_sources {planned : List (PlannedEntry β)} (i : Position planned) :
    (planned.map PlannedEntry.source)[i.1]? = some (sourceAt planned i) := by
  simp [sourceAt]

theorem sourceAt_injective {planned : List (PlannedEntry β)}
    (h : (planned.map PlannedEntry.source).Nodup) : Function.Injective (sourceAt planned) := by
  intro i j hij
  refine Fin.ext ((List.getElem?_inj (by simp) h).1 ?_)
  rw [getElem?_sources, getElem?_sources, hij]

/-- Two lists hold the same entries, in orders in which two policies decide alike: either both reject
collisions or neither does, and one keeps an owner before another claimant if the other one does so
with their counterparts. -/
structure Reordered (policy policy' : CollisionPolicy) (planned planned' : List (PlannedEntry β)) :
    Prop where
  perm : (planned.map PlannedEntry.unordered).Perm (planned'.map PlannedEntry.unordered)
  nodup : (planned.map PlannedEntry.source).Nodup
  reject_iff : policy = .reject ↔ policy' = .reject
  keeps_iff : ∀ {i j : Position planned} {i' j' : Position planned'},
    sourceAt planned i = sourceAt planned' i' → sourceAt planned j = sourceAt planned' j' →
      (policy.Keeps i j ↔ policy'.Keeps i' j')

namespace Reordered
variable {policy policy' : CollisionPolicy} {planned planned' : List (PlannedEntry β)}
  (h : Reordered policy policy' planned planned')
include h

theorem perm_sources : (planned.map PlannedEntry.source).Perm (planned'.map PlannedEntry.source) := by
  simpa [Function.comp_def, PlannedEntry.unordered] using h.perm.map PlannedEntry.source

theorem symm : Reordered policy' policy planned' planned where
  perm := h.perm.symm
  nodup := h.perm_sources.nodup_iff.1 h.nodup
  reject_iff := h.reject_iff.symm
  keeps_iff hi hj := (h.keeps_iff hi.symm hj.symm).symm

theorem injective : Function.Injective (sourceAt planned) := sourceAt_injective h.nodup

theorem exists_counterpart (i : Position planned) : ∃ i', sourceAt planned i = sourceAt planned' i' ∧
    (planned.get i).unordered = (planned'.get i').unordered := by
  have hmem : (planned.get i).unordered ∈ planned'.map PlannedEntry.unordered :=
    h.perm.subset (List.mem_map_of_mem (List.get_mem planned i))
  obtain ⟨e', he', hsame⟩ := List.mem_map.1 hmem
  obtain ⟨i', rfl⟩ := List.get_of_mem he'
  exact ⟨i', (congrArg PlannedEntry.source hsame).symm, hsame.symm⟩

theorem unordered_eq {i : Position planned} {i' : Position planned'}
    (hi : sourceAt planned i = sourceAt planned' i') :
    (planned.get i).unordered = (planned'.get i').unordered := by
  obtain ⟨j', hj', hsame⟩ := h.exists_counterpart i
  rw [hsame, h.symm.injective (hj'.symm.trans hi)]

theorem matching : Matching (sourceAt planned) (sourceAt planned') where
  injective := h.injective
  injective' := h.symm.injective
  source_eq hi := hi
  target_eq hi := (congrArg PlannedEntry.target (h.unordered_eq hi) :)

theorem claimedKeys_eq {i : Position planned} {i' : Position planned'}
    (hi : sourceAt planned i = sourceAt planned' i') :
    (planned.get i).claimedKeys = (planned'.get i').claimedKeys :=
  (congrArg PlannedEntry.claimedKeys (h.unordered_eq hi) :)

/-- Claims that succeed on one list succeed on the other. -/
theorem exists_all (hall : ∃ c, Claims.all policy planned = .ok c) :
    ∃ c', Claims.all policy' planned' = .ok c' := by
  obtain ⟨hshapes, hdisjoint⟩ := Claims.exists_all_iff.1 hall
  refine Claims.exists_all_iff.2 ⟨?_, ?_⟩
  · intro e' he' shape hshape
    obtain ⟨i', rfl⟩ := List.get_of_mem he'
    obtain ⟨i, _, hsame⟩ := h.symm.exists_counterpart i'
    refine hshapes _ (List.get_mem planned i) shape ?_
    exact (congrArg PlannedEntry.shapes hsame) ▸ hshape
  · intro hreject key i' j' hi' hj'
    obtain ⟨i, hi, _⟩ := h.symm.exists_counterpart i'
    obtain ⟨j, hj, _⟩ := h.symm.exists_counterpart j'
    have hij : i = j := by
      refine hdisjoint (h.reject_iff.2 hreject) key i j ?_ ?_
      · rwa [h.claimedKeys_eq hi.symm]
      · rwa [h.claimedKeys_eq hj.symm]
    exact h.symm.injective (by rw [hi, hj, hij])

/-- Two look-ups that find counterparts find the same sources. -/
theorem map_sourceAt_eq {x : Option (Position planned)} {x' : Option (Position planned')}
    (hx : ∀ {i i'}, sourceAt planned i = sourceAt planned' i' → (x = some i ↔ x' = some i')) :
    x.map (sourceAt planned) = x'.map (sourceAt planned') := by
  cases x with
  | some i =>
    obtain ⟨i', hi, _⟩ := h.exists_counterpart i
    rw [(hx hi).1 rfl]
    exact congrArg some hi
  | none =>
    cases x' with
    | none => rfl
    | some i' =>
      obtain ⟨i, hi, _⟩ := h.symm.exists_counterpart i'
      cases (hx hi.symm).2 rfl

theorem map_positionOf?_eq (text : String) :
    (positionOf? planned text).map (sourceAt planned) =
      (positionOf? planned' text).map (sourceAt planned') := by
  cases hposition : positionOf? planned text with
  | none =>
    have hnone : positionOf? planned' text = none := by
      rw [positionOf?_eq_none_iff] at hposition ⊢
      intro i' hi'
      obtain ⟨i, hi, _⟩ := h.symm.exists_counterpart i'
      exact hposition i (hi.symm.trans hi')
    rw [hnone]
    rfl
  | some i =>
    cases hposition' : positionOf? planned' text with
    | none =>
      obtain ⟨i', hi, _⟩ := h.exists_counterpart i
      exact absurd (hi.symm.trans (source_of_positionOf? hposition))
        (positionOf?_eq_none_iff.1 hposition' i')
    | some i' =>
      have hsame := (source_of_positionOf? hposition).trans (source_of_positionOf? hposition').symm
      exact congrArg some hsame

section
variable {claims : Claims planned} {claims' : Claims planned'}
  (hclaims : Claims.all policy planned = .ok claims)
  (hclaims' : Claims.all policy' planned' = .ok claims')
include hclaims hclaims'

/-- A key has the same owner in both lists. -/
theorem map_owner_eq (key : Key) : (claims.owners.find? key).map (sourceAt planned) =
    (claims'.owners.find? key).map (sourceAt planned') := by
  refine h.map_sourceAt_eq (fun {i i'} hi => ?_)
  simp only [(Claims.settled_all hclaims).find?_eq_some_iff,
    (Claims.settled_all hclaims').find?_eq_some_iff, mem_claimSequence, h.claimedKeys_eq hi]
  -- the other claimants on either side are the counterparts of those on the other
  refine and_congr_right (fun _ => ⟨fun hkept j' hj' => ?_, fun hkept j hj => ?_⟩)
  · obtain ⟨j, hj, _⟩ := h.symm.exists_counterpart j'
    exact (h.keeps_iff hi hj.symm).1 (hkept j (by rwa [h.claimedKeys_eq hj.symm]))
  · obtain ⟨j', hj', _⟩ := h.exists_counterpart j
    exact (h.keeps_iff hi hj').2 (hkept j' (by rwa [← h.claimedKeys_eq hj']))

theorem map_findTarget?_eq (text : String) :
    (findTarget? claims.owners text).map (sourceAt planned) =
      (findTarget? claims'.owners text).map (sourceAt planned') :=
  map_findTarget?_congr h.map_positionOf?_eq (h.map_owner_eq hclaims hclaims') text

end

end Reordered

/-! ### Tables -/

/-- The entry without what depends on its table: its id and the tokens of its defaults. -/
def ResolvedEntry.asDeclared (e : ResolvedEntry β) : ResolvedEntry β :=
  { e with id := 0, defaultTokens := [] }

/-- Two tables hold the same keys, declared by the same entries, and lead them to the same
implementations. -/
structure DispatchTable.Alike (t t' : DispatchTable β) : Prop where
  contains_eq : ∀ key, t.contains key = t'.contains key
  declaredBy_eq : ∀ key,
    (t.slot? key).map KeySlot.declaredBy = (t'.slot? key).map KeySlot.declaredBy
  exists_lookup : ∀ {key}, t.contains key = true → ∃ e e',
    t.lookup key = some e ∧ t'.lookup key = some e' ∧ e.asDeclared = e'.asDeclared

theorem asDeclared_resolveMethod {classifier classifier' : Classifier β} {id id' : Nat}
    {e e' : PlannedEntry β} (h : e.unordered = e'.unordered) (implementation : Implementation β) :
    (resolveMethod classifier id e implementation).asDeclared =
      (resolveMethod classifier' id' e' implementation).asDeclared := by
  have hsource : e.source = e'.source := (congrArg PlannedEntry.source h :)
  have hnames : e.paramNames = e'.paramNames := (congrArg PlannedEntry.paramNames h :)
  have hdefaults : e.defaults = e'.defaults := (congrArg PlannedEntry.defaults h :)
  simp [resolveMethod, ResolvedEntry.asDeclared, hsource, hnames, hdefaults]

namespace Reordered
variable {config config' : EngineConfig} {planned planned' : List (PlannedEntry β)}
  {classifier classifier' : Classifier β}
  (h : Reordered config.collisionPolicy config'.collisionPolicy planned planned')
include h

/-- If one table can be built, so can the other. -/
theorem exists_buildTable (hhops : config.maxAliasHops = config'.maxAliasHops)
    (ht : ∃ t, buildTable classifier config planned = .ok t) :
    ∃ t', buildTable classifier' config' planned' = .ok t' := by
  obtain ⟨claims, hclaims, hchase⟩ := exists_buildTable_iff.1 ht
  obtain ⟨claims', hclaims'⟩ := h.exists_all ⟨claims, hclaims⟩
  refine exists_buildTable_iff.2 ⟨claims', hclaims', fun i' => ?_⟩
  obtain ⟨i, hi, _⟩ := h.symm.exists_counterpart i'
  obtain ⟨terminal, hterminal⟩ := hchase i
  have hsame := h.matching.map_chase_congr (h.map_findTarget?_eq hclaims hclaims')
    config.maxAliasHops hi.symm
  rw [← hhops]
  obtain ⟨_, herror, _⟩ | ⟨_, terminal', _, hterminal', _⟩ := cases_of_map_eq hsame
  · rw [hterminal] at herror
    cases herror
  · exact ⟨terminal', hterminal'⟩

/-- The tables are alike. -/
theorem alike {t t' : DispatchTable β} (ht : buildTable classifier config planned = .ok t)
    (ht' : buildTable classifier' config' planned' = .ok t') : t.Alike t' := by
  obtain ⟨claims, hclaims, ht⟩ := buildTable_eq_ok ht
  obtain ⟨claims', hclaims', ht'⟩ := buildTable_eq_ok ht'
  have hdeclared : ∀ key,
      (t.slot? key).map KeySlot.declaredBy = (t'.slot? key).map KeySlot.declaredBy := by
    intro key
    rw [ht.map_declaredBy, ht'.map_declaredBy]
    exact h.map_owner_eq hclaims hclaims' key
  refine ⟨fun key => ?_, hdeclared, fun {key} hkey => ?_⟩
  · have hsome := congrArg Option.isSome (hdeclared key)
    rwa [Option.isSome_map, Option.isSome_map] at hsome
  · obtain ⟨slot, hslot⟩ := Option.isSome_iff_exists.1 hkey
    obtain ⟨owner, terminal, method, howner, _, hfollows, hmethod, hlookup⟩ :=
      ht.exists_owner hslot
    obtain ⟨owner', howner', hmark⟩ :=
      exists_of_optionMap_eq (h.map_owner_eq hclaims hclaims' key) howner
    -- the aliases of both owners lead to counterparts, which provide the same implementation
    obtain ⟨terminal', hterminal, hfollows'⟩ :=
      h.matching.follows_congr (h.map_findTarget?_eq hclaims hclaims') hfollows hmark
    obtain ⟨id, method', hmethod', hlookup'⟩ := ht'.lookup_of_follows howner' hfollows'
    have hend := h.unordered_eq hterminal
    have hmethods : method = method' := by
      have hsame := congrArg PlannedEntry.method? hend
      exact Option.some.inj (hmethod.symm.trans (hsame.trans hmethod'))
    exact ⟨_, _, hlookup, hmethods ▸ hlookup', asDeclared_resolveMethod hend method⟩

end Reordered

/-! ### Descriptions -/

namespace Description

/-- The same entries, declared in the opposite order. -/
def reverse (d : Description β) : Description β :=
  ⟨⟨d.toList.reverse, by
    rw [List.map_reverse, List.nodup_reverse]
    exact d.entries.nodup⟩⟩

variable {d d' : Description β} {planned planned' : List (PlannedEntry β)}

theorem Plannable.perm (h : d.Plannable) (hperm : d.toList.Perm d'.toList) : d'.Plannable :=
  fun declared hdeclared => h declared (hperm.mem_iff.2 hdeclared)

namespace PlannedAs

theorem map_source (h : d.PlannedAs planned) :
    planned.map PlannedEntry.source = d.toList.map Prod.fst :=
  (forall₂_iff_map_eq.1 (h.imp (fun _ _ hstands => hstands.source_eq.symm))).symm

theorem nodup_sources (h : d.PlannedAs planned) : (planned.map PlannedEntry.source).Nodup := by
  rw [h.map_source]
  exact d.entries.nodup

/-- The planned entries are reordered as the declared ones are. -/
theorem perm_unordered (h : d.PlannedAs planned) (h' : d'.PlannedAs planned')
    (hperm : d.toList.Perm d'.toList) :
    (planned.map PlannedEntry.unordered).Perm (planned'.map PlannedEntry.unordered) := by
  have hunique : Relator.RightUnique (fun (declared : String × Entry β) (u : PlannedEntry β) =>
      ∃ e : PlannedEntry β, e.StandsFor declared.1 declared.2 ∧ e.unordered = u) := by
    rintro ⟨source, entry⟩ _ _ ⟨e, he, rfl⟩ ⟨e', he', rfl⟩
    exact he.unordered_eq he'
  refine List.rel_perm_imp hunique ?_ ?_ hperm
  · rw [List.forall₂_map_right_iff]
    exact h.imp (fun _ e he => ⟨e, he, rfl⟩)
  · rw [List.forall₂_map_right_iff]
    exact h'.imp (fun _ e he => ⟨e, he, rfl⟩)

/-- Where collisions are rejected, any order will do. -/
theorem reordered_reject (h : d.PlannedAs planned) (h' : d'.PlannedAs planned')
    (hperm : d.toList.Perm d'.toList) : Reordered .reject .reject planned planned' where
  perm := h.perm_unordered h' hperm
  nodup := h.nodup_sources
  reject_iff := Iff.rfl
  keeps_iff {i j i' j'} hi hj := by
    rw [CollisionPolicy.Keeps, CollisionPolicy.Keeps, ← Fin.ext_iff, ← Fin.ext_iff,
      ← (sourceAt_injective h.nodup_sources).eq_iff, hi, hj,
      (sourceAt_injective h'.nodup_sources).eq_iff]

/-- Counterparts are as far from the two ends. -/
theorem position_reverse (h : d.PlannedAs planned) (h' : d.reverse.PlannedAs planned')
    {i : Position planned} {i' : Position planned'}
    (hi : sourceAt planned i = sourceAt planned' i') : i.1 + i'.1 + 1 = planned.length := by
  have hsources : planned'.map PlannedEntry.source = (planned.map PlannedEntry.source).reverse := by
    rw [h.map_source, h'.map_source, ← List.map_reverse]
    rfl
  have hlength : planned'.length = planned.length := by simpa using congrArg List.length hsources
  have hlt : i'.1 < (planned.map PlannedEntry.source).length := by
    rw [List.length_map, ← hlength]
    exact i'.2
  have hsame := getElem?_sources i'
  rw [hsources, List.getElem?_reverse hlt, List.length_map, ← hi, ← getElem?_sources i,
    List.getElem?_inj (by rw [List.length_map]; omega) h.nodup_sources] at hsame
  omega

/-- What is declared first in one order is declared last in the other. -/
theorem reordered_reverse (h : d.PlannedAs planned) (h' : d.reverse.PlannedAs planned') :
    Reordered .firstDeclaredWins .lastDeclaredWins planned planned' where
  perm := h.perm_unordered h' d.toList.reverse_perm.symm
  nodup := h.nodup_sources
  reject_iff := by decide
  keeps_iff {i j i' j'} hi hj := by
    have hi := h.position_reverse h' hi
    have hj := h.position_reverse h' hj
    rw [CollisionPolicy.Keeps, CollisionPolicy.Keeps]
    omega

end PlannedAs

end Description

/-! ### Compilation -/

namespace Engine

/-- Two engines of the standard stages and two descriptions of the same entries, in orders in which the
policies decide alike. -/
structure Mirrored (engine engine' : Engine β) (d d' : Description β) : Prop where
  stages_eq : engine.stages = Stage.standard
  stages_eq' : engine'.stages = Stage.standard
  hops_eq : engine.config.maxAliasHops = engine'.config.maxAliasHops
  perm : d.toList.Perm d'.toList
  reordered : ∀ {planned planned'}, d.PlannedAs planned → d'.PlannedAs planned' →
    Reordered engine.config.collisionPolicy engine'.config.collisionPolicy planned planned'

namespace Mirrored
variable {engine engine' : Engine β} {d d' : Description β} (h : Mirrored engine engine' d d')
include h

theorem symm : Mirrored engine' engine d' d where
  stages_eq := h.stages_eq'
  stages_eq' := h.stages_eq
  hops_eq := h.hops_eq.symm
  perm := h.perm.symm
  reordered hd hd' := (h.reordered hd' hd).symm

theorem exists_compile (hr : ∃ r, engine.compile d = .ok r) :
    ∃ r', engine'.compile d' = .ok r' := by
  obtain ⟨r, hr⟩ := hr
  obtain ⟨_, planned, hplan, ht⟩ := compile_eq_ok_iff.1 hr
  obtain ⟨parsed, hparsed, _⟩ := bind_eq_ok.1 hplan
  have hd' := (Description.exists_plan_iff.1 ⟨parsed, hparsed⟩).perm h.perm
  have hstages : ∀ stage ∈ engine'.stages, stage ∈ Stage.standard := by
    rw [h.stages_eq']
    exact fun _ hstage => hstage
  obtain ⟨planned', hplan', _⟩ := hd'.exists_plannedBehind hstages
  obtain ⟨t', ht'⟩ := (h.reordered (plan_standard h.stages_eq hplan)
    (plan_standard h.stages_eq' hplan')).exists_buildTable h.hops_eq ⟨_, ht⟩
  exact ⟨⟨t', engine'.classifier⟩, compile_eq_ok_iff.2 ⟨rfl, planned', hplan', ht'⟩⟩

theorem alike {r r' : Resolver β} (hr : engine.compile d = .ok r)
    (hr' : engine'.compile d' = .ok r') : r.table.Alike r'.table := by
  obtain ⟨_, planned, hplan, ht⟩ := compile_eq_ok_iff.1 hr
  obtain ⟨_, planned', hplan', ht'⟩ := compile_eq_ok_iff.1 hr'
  exact (h.reordered (plan_standard h.stages_eq hplan)
    (plan_standard h.stages_eq' hplan')).alike ht ht'

end Mirrored

end Engine

/-- A call that its own key leads to an entry for is handled alike. -/
theorem DispatchTable.Alike.select_eq {r r' : Resolver β} (h : r.table.Alike r'.table)
    (hclassifier : r.classifier = r'.classifier) {args : List (Value β)}
    (hkey : r.table.contains (r.typeKey args) = true) :
    ∃ s s', r.select args = .ok s ∧ r'.select args = .ok s' ∧
      s.entry.source = s'.entry.source ∧ s.key = s'.key ∧ s.padding = s'.padding := by
  have hsame : r.typeKey args = r'.typeKey args := by
    rw [Resolver.typeKey, Resolver.typeKey, hclassifier]
  obtain ⟨e, e', hlookup, hlookup', hdeclared⟩ := h.exists_lookup hkey
  rw [hsame] at hlookup'
  have hsource : e.source = e'.source := (congrArg ResolvedEntry.source hdeclared :)
  have hdefaults : e.defaults = e'.defaults := (congrArg ResolvedEntry.defaults hdeclared :)
  exact ⟨_, _, Resolver.select_of_lookup hlookup, Resolver.select_of_lookup hlookup', hsource, hsame,
    by rw [hdefaults]⟩

/-- ORDER: where collisions are rejected, the order of the entries decides neither whether a description
compiles nor what its table holds and where its keys lead, and calls whose own key is in the table are
handled alike. -/
theorem Engine.compile_perm {engine : Engine β} {d d' : Description β}
    (hs : engine.stages = Stage.standard) (hreject : engine.config.collisionPolicy = .reject)
    (hperm : d.toList.Perm d'.toList) :
    ((∃ r, engine.compile d = .ok r) ↔ ∃ r', engine.compile d' = .ok r') ∧
    ∀ r r', engine.compile d = .ok r → engine.compile d' = .ok r' →
      r.table.Alike r'.table ∧
      ∀ args, r.table.contains (r.typeKey args) = true →
        ∃ s s', r.select args = .ok s ∧ r'.select args = .ok s' ∧
          s.entry.source = s'.entry.source ∧ s.key = s'.key ∧ s.padding = s'.padding := by
  have h : Mirrored engine engine d d' := by
    refine ⟨hs, hs, rfl, hperm, fun hd hd' => ?_⟩
    rw [hreject]
    exact hd.reordered_reject hd' hperm
  refine ⟨⟨h.exists_compile, h.symm.exists_compile⟩, fun r r' hr hr' => ?_⟩
  have halike := h.alike hr hr'
  have hclassifier := (compile_eq_ok_iff.1 hr).1.trans (compile_eq_ok_iff.1 hr').1.symm
  exact ⟨halike, fun args hkey => halike.select_eq hclassifier hkey⟩

/-- The standard engine with a policy. -/
def Engine.settling (policy : CollisionPolicy) : Engine Unit :=
  ⟨.standard, ⟨4, policy⟩, Stage.standard⟩

/-- An entry with a default, an alias that finds it through one of its keys, and another entry. -/
def aliased : Description Unit :=
  ((Description.empty.insertOverload
    ⟨"[array:list] [object:options]?", [.null, .object []], ⟨"list", 0, [], ()⟩⟩).insert
      "[date]" (.aliasOf "[array]")).insert "[string|number]" (.method ⟨"either", 1, [], ()⟩)

/-- The same with the first entry last. -/
def aliasedAhead : Description Unit :=
  ((Description.empty.insert "[date]" (.aliasOf "[array]")).insert
    "[string|number]" (.method ⟨"either", 1, [], ()⟩)).insertOverload
      ⟨"[array:list] [object:options]?", [.null, .object []], ⟨"list", 0, [], ()⟩⟩

theorem Engine.compile_perm_aliased : ∃ r r', aliased.toList.Perm aliasedAhead.toList ∧
    (settling .reject).compile aliased = .ok r ∧ (settling .reject).compile aliasedAhead = .ok r' ∧
    r.table.slot? ⟨["date"]⟩ = some ⟨0, "[date]"⟩ ∧ r.table.Alike r'.table ∧
    ∃ s s', r.select [.array []] = .ok s ∧ r'.select [.array []] = .ok s' ∧
      s.entry.source = s'.entry.source ∧ s.key = s'.key ∧ s.padding = s'.padding := by
  have hperm : aliased.toList.Perm aliasedAhead.toList :=
    @List.perm_append_comm _ [aliased.toList[0]] _
  obtain ⟨r, hr, hslot⟩ : ∃ r, (settling .reject).compile aliased = .ok r ∧
      (r.table.slot? ⟨["date"]⟩, r.table.contains (r.typeKey [.array []])) =
        (some ⟨0, "[date]"⟩, true) := exists_ok_of_toOption (by decide +kernel)
  obtain ⟨hslot, hkey⟩ := Prod.ext_iff.1 hslot
  obtain ⟨hcompiles, hsame⟩ := @compile_perm _ (settling .reject) _ _ rfl rfl hperm
  obtain ⟨r', hr'⟩ := hcompiles.1 ⟨r, hr⟩
  obtain ⟨halike, hselect⟩ := hsame r r' hr hr'
  exact ⟨r, r', hperm, hr, hr', hslot, halike, hselect _ hkey⟩

/-- MIRRORED POLICIES: a description compiles where the first declaration wins exactly if the one in the
opposite order compiles where the last one does, and then their tables hold the same keys, declared by
the same entries, and lead them to the same implementations. -/
theorem Engine.compile_reverse {first last : Engine β} (hfirst : first.stages = Stage.standard)
    (hlast : last.stages = Stage.standard)
    (hkeeps : first.config.collisionPolicy = .firstDeclaredWins)
    (htakes : last.config.collisionPolicy = .lastDeclaredWins)
    (hhops : first.config.maxAliasHops = last.config.maxAliasHops) (d : Description β) :
    ((∃ r, first.compile d = .ok r) ↔ ∃ r', last.compile d.reverse = .ok r') ∧
    ∀ r r', first.compile d = .ok r → last.compile d.reverse = .ok r' → r.table.Alike r'.table := by
  have h : Mirrored first last d d.reverse := by
    refine ⟨hfirst, hlast, hhops, d.toList.reverse_perm.symm, fun hd hd' => ?_⟩
    rw [hkeeps, htakes]
    exact hd.reordered_reverse hd'
  exact ⟨⟨h.exists_compile, h.symm.exists_compile⟩, fun r r' hr hr' => h.alike hr hr'⟩

/-- Two entries that overlap at `[object, array]`, and an alias of whoever owns that key. -/
def disputed : Description Unit :=
  ((Description.empty.insert "[object, string|array]" (.method ⟨"first", 0, [], ()⟩)).insert
    "[object, array|number]" (.method ⟨"second", 1, [], ()⟩)).insert
    "[date]" (.aliasOf "[object, array]")

theorem Engine.compile_reverse_disputed : ∃ r r',
    (settling .firstDeclaredWins).compile disputed = .ok r ∧
    (settling .lastDeclaredWins).compile disputed.reverse = .ok r' ∧
    (r.table.lookup ⟨["date"]⟩).map ResolvedEntry.source = some "[object, string|array]" ∧
    r.table.Alike r'.table := by
  obtain ⟨r, hr, hsource⟩ : ∃ r, (settling .firstDeclaredWins).compile disputed = .ok r ∧
      (r.table.lookup ⟨["date"]⟩).map ResolvedEntry.source = some "[object, string|array]" :=
    exists_ok_of_toOption (by decide +kernel)
  obtain ⟨hcompiles, hsame⟩ := @compile_reverse _ (settling .firstDeclaredWins)
    (settling .lastDeclaredWins) rfl rfl rfl rfl rfl disputed
  obtain ⟨r', hr'⟩ := hcompiles.1 ⟨r, hr⟩
  exact ⟨r, r', hr, hr', hsource, hsame r r' hr hr'⟩

end ShapeDispatch
