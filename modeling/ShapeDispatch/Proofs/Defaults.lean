import ShapeDispatch.Proofs.Keeping
import ShapeDispatch.Proofs.Outlines
import ShapeDispatch.Proofs.Padding

/-!
What defaults have no part in. Everything up to the table can be done without the defaults: planning
(`Engine.plan_withoutDefaults`), claiming keys and following aliases
(`map_buildTable_withoutDefaults`). So two descriptions that differ in nothing but defaults have the
same keys, slots and collisions, and a call whose own key is in the table selects the same entry of
either (`Engine.compile_defaults`).
-/

namespace ShapeDispatch
variable {β : Type}

/-- The entry without values for trailing arguments; all else that is declared stays. -/
def Entry.withoutDefaults : Entry β → Entry β
  | overload o => overload { o with defaults := [] }
  | entry => entry

def Description.withoutDefaults (d : Description β) : Description β :=
  ⟨d.entries.mapValues (fun _ entry => entry.withoutDefaults)⟩

theorem Description.withoutDefaults_insert (d : Description β) (signature : String)
    (entry : Entry β) : (d.insert signature entry).withoutDefaults =
      d.withoutDefaults.insert signature entry.withoutDefaults :=
  congrArg Description.mk (OrderedMap.mapValues_insert _ d.entries signature entry)

def PlannedEntry.withoutDefaults (e : PlannedEntry β) : PlannedEntry β := { e with defaults := [] }

/-- The entry of a table without its defaults and their tokens. -/
def ResolvedEntry.withoutDefaults (e : ResolvedEntry β) : ResolvedEntry β :=
  { e with defaults := [], defaultTokens := [] }

/-- The table as if no entry had defaults. -/
def DispatchTable.withoutDefaults (t : DispatchTable β) : DispatchTable β :=
  { t with entries := t.entries.map ResolvedEntry.withoutDefaults, padded := [] }

/-! ### Planning -/

theorem Entry.plan_withoutDefaults {order : Nat} {source : String} {entry : Entry β}
    {e : PlannedEntry β} (h : entry.plan order source = .ok e) :
    entry.withoutDefaults.plan order source = .ok e.withoutDefaults := by
  obtain ⟨signature, hread, rfl⟩ := Entry.plan_eq_ok h
  have htext : entry.withoutDefaults.signatureText source = entry.signatureText source := by
    cases entry <;> rfl
  have htarget : entry.withoutDefaults.target = entry.target := by
    cases entry <;> rfl
  have hdefaults : entry.withoutDefaults.defaults = [] := by
    cases entry <;> rfl
  rw [plan, htext, hread, htarget, hdefaults]
  rfl

theorem Description.plan_withoutDefaults {d : Description β} {parsed : List (PlannedEntry β)}
    (h : d.plan = .ok parsed) :
    d.withoutDefaults.plan = .ok (parsed.map PlannedEntry.withoutDefaults) := by
  have hlist : d.withoutDefaults.toList.zipIdx =
      d.toList.zipIdx.map (Prod.map (fun p => (p.1, p.2.withoutDefaults)) id) :=
    List.map_zipIdx.symm
  rw [plan, hlist, mapM_eq_ok, List.forall₂_map_left_iff, List.forall₂_map_right_iff]
  exact (mapM_eq_ok.1 h).imp (fun _ _ he => Entry.plan_withoutDefaults he)

namespace Stage
variable {stage : Stage β} {stages : List (Stage β)} {entries entries' : List (PlannedEntry β)}

theorem BuiltIn.run_withoutDefaults (hstage : stage.BuiltIn) (h : stage.run entries = .ok entries') :
    stage.run (entries.map PlannedEntry.withoutDefaults) =
      .ok (entries'.map PlannedEntry.withoutDefaults) := by
  cases stage with
  | custom name change => exact hstage.elim
  | tokenSynonyms synonyms =>
    simp only [run] at h ⊢
    split at h
    · cases h
    · cases h
      rw [List.map_map, List.map_map]
      rfl
  | _ =>
    cases h
    simp only [run, List.map_map]
    rfl

theorem runAll_withoutDefaults : ∀ {stages : List (Stage β)} {entries : List (PlannedEntry β)},
    (∀ stage ∈ stages, stage.BuiltIn) → runAll stages entries = .ok entries' →
      runAll stages (entries.map PlannedEntry.withoutDefaults) =
        .ok (entries'.map PlannedEntry.withoutDefaults)
  | [], entries, _, h => by
    cases h
    rfl
  | stage :: stages, entries, hstages, h => by
    obtain ⟨hstage, hstages⟩ := List.forall_mem_cons.1 hstages
    rw [runAll, List.foldlM_cons] at h ⊢
    obtain ⟨now, hnow, hrest⟩ := bind_eq_ok.1 h
    exact bind_eq_ok.2 ⟨_, hstage.run_withoutDefaults hnow, runAll_withoutDefaults hstages hrest⟩

end Stage

theorem Engine.plan_withoutDefaults {engine : Engine β} {d : Description β}
    {planned : List (PlannedEntry β)} (hstages : ∀ stage ∈ engine.stages, stage.BuiltIn)
    (h : engine.plan d = .ok planned) :
    engine.plan d.withoutDefaults = .ok (planned.map PlannedEntry.withoutDefaults) := by
  obtain ⟨parsed, hparsed, hrun⟩ := bind_eq_ok.1 h
  exact bind_eq_ok.2 ⟨_, Description.plan_withoutDefaults hparsed,
    Stage.runAll_withoutDefaults hstages hrun⟩

/-! ### Building -/

theorem resolveMethods_withoutDefaults (classifier : Classifier β) :
    ∀ (planned : List (PlannedEntry β)) (id : Nat),
      resolveMethods classifier id (planned.map PlannedEntry.withoutDefaults) =
        (resolveMethods classifier id planned).map ResolvedEntry.withoutDefaults
  | [], _ => rfl
  | e :: rest, id => by
    have hmethod : e.withoutDefaults.method? = e.method? := rfl
    rw [List.map_cons, resolveMethods, resolveMethods, hmethod]
    cases e.method? with
    | none => exact resolveMethods_withoutDefaults classifier rest id
    | some implementation =>
      exact congrArg (List.cons _) (resolveMethods_withoutDefaults classifier rest (id + 1))

section
variable {planned planned' : List (PlannedEntry β)}
  (h : planned.map PlannedEntry.withoutDefaults = planned'.map PlannedEntry.withoutDefaults)
include h

theorem outline_of_withoutDefaults :
    planned.map PlannedEntry.outline = planned'.map PlannedEntry.outline :=
  map_outline_congr (f := PlannedEntry.withoutDefaults) (fun _ => rfl) h

theorem Claims.map_all_record (policy : CollisionPolicy) :
    (all policy planned).map record = (all policy planned').map record := by
  have houtline := outline_of_withoutDefaults h
  refine map_foldlM_congr ?_ (forall₂_finRange (length_eq_of_outline houtline)) rfl
  intro c c' i i' hi hc
  have hshapes : (planned.get i).shapes = (planned'.get i').shapes :=
    (congrArg PlannedEntry.shapes (get_congr h hi) :)
  rw [claimEntry, claimEntry, hshapes]
  exact map_foldlM_congr_left (fun _ _ shape hs => map_claimShape_record houtline hs hi shape) _ hc

/-- Entries that differ only in defaults make tables that differ only in defaults. -/
theorem map_buildTable_withoutDefaults (classifier : Classifier β) (config : EngineConfig) :
    (buildTable classifier config planned).map DispatchTable.withoutDefaults =
      (buildTable classifier config planned').map DispatchTable.withoutDefaults := by
  have houtline := outline_of_withoutDefaults h
  refine map_bind_congr (Claims.map_all_record h _) (fun c c' hc => ?_)
  have hnumbers : c.numbers = c'.numbers := (congrArg Prod.fst hc :)
  have hcollisions : c.collisions = c'.collisions := (congrArg Prod.snd hc :)
  refine map_bind_congr (map_mapError_congr _ (map_terminals_congr houtline hnumbers _))
    (fun ends ends' hends => ?_)
  have hkeys := mapValues_slotOf_congr houtline hnumbers hends
  have hentries : (resolveMethods classifier 0 planned).map ResolvedEntry.withoutDefaults =
      (resolveMethods classifier 0 planned').map ResolvedEntry.withoutDefaults := by
    rw [← resolveMethods_withoutDefaults, h, resolveMethods_withoutDefaults]
  simp only [Except.map, DispatchTable.withoutDefaults, hkeys, hcollisions, hentries]

end

/-! ### Calls -/

/-- What a key leads to is found without the defaults as well. -/
theorem DispatchTable.map_lookup_withoutDefaults (t : DispatchTable β) (key : Key) :
    (t.lookup key).map ResolvedEntry.withoutDefaults = t.withoutDefaults.lookup key := by
  simp only [lookup, slot?, withoutDefaults, Option.map_bind, entry?, List.getElem?_map]
  rfl

namespace Engine

/-- DEFAULTS: two descriptions that differ only in defaults, and that both compile with stages of this
library, have tables with the same keys, in the same order and with the same slots, and with the same
collisions. A call whose own key is in these tables selects the same entry under the same key, and
runs the same implementation; only what fills it up may differ. -/
theorem compile_defaults {engine : Engine β} {d d' : Description β} {r r' : Resolver β}
    (hstages : ∀ stage ∈ engine.stages, stage.BuiltIn)
    (hd : d.withoutDefaults = d'.withoutDefaults) (h : engine.compile d = .ok r)
    (h' : engine.compile d' = .ok r') :
    r.table.keys = r'.table.keys ∧ r.table.collisions = r'.table.collisions ∧
    r.table.entries.map ResolvedEntry.withoutDefaults =
      r'.table.entries.map ResolvedEntry.withoutDefaults ∧
    ∀ args, r.table.contains (r.typeKey args) = true →
      ∃ s s', r.select args = .ok s ∧ r'.select args = .ok s' ∧
        s.entry.id = s'.entry.id ∧ s.key = r.typeKey args ∧ s'.key = r.typeKey args ∧
        s.entry.withoutDefaults = s'.entry.withoutDefaults ∧
        ∀ run,
          r.call run args = s.entry.implementation.call run (args ++ s.padding) ∧
          r'.call run args = s.entry.implementation.call run (args ++ s'.padding) := by
  obtain ⟨hclassifier, planned, hplan, ht⟩ := compile_eq_ok_iff.1 h
  obtain ⟨hclassifier', planned', hplan', ht'⟩ := compile_eq_ok_iff.1 h'
  have hplanned : planned.map PlannedEntry.withoutDefaults =
      planned'.map PlannedEntry.withoutDefaults := by
    have hwithout := plan_withoutDefaults hstages hplan
    rw [hd, plan_withoutDefaults hstages hplan'] at hwithout
    exact (Except.ok.inj hwithout).symm
  have htables : r.table.withoutDefaults = r'.table.withoutDefaults := by
    have hbuild := map_buildTable_withoutDefaults hplanned engine.classifier engine.config
    rw [ht, ht'] at hbuild
    exact Except.ok.inj hbuild
  refine ⟨(congrArg DispatchTable.keys htables :), (congrArg DispatchTable.collisions htables :),
    (congrArg DispatchTable.entries htables :), fun args hargs => ?_⟩
  obtain ⟨claims, _, hbuilt⟩ := buildTable_eq_ok ht
  have hkey : r'.typeKey args = r.typeKey args := by
    rw [Resolver.typeKey, Resolver.typeKey, hclassifier, hclassifier']
  obtain ⟨e, he⟩ : ∃ e, r.table.lookup (r.typeKey args) = some e := by
    refine Option.ne_none_iff_exists'.1 (fun hnone => ?_)
    rw [hbuilt.lookup_eq_none_iff.1 hnone] at hargs
    cases hargs
  have hlookup : (r.table.lookup (r.typeKey args)).map ResolvedEntry.withoutDefaults =
      (r'.table.lookup (r.typeKey args)).map ResolvedEntry.withoutDefaults := by
    rw [DispatchTable.map_lookup_withoutDefaults, htables,
      DispatchTable.map_lookup_withoutDefaults]
  obtain ⟨e', he', hsame⟩ := exists_of_optionMap_eq hlookup he
  have hs := Resolver.select_of_lookup he
  have hs' : r'.select args = .ok ⟨e', r'.typeKey args, e'.defaults.drop args.length⟩ :=
    Resolver.select_of_lookup (by rw [hkey, he'])
  refine ⟨_, _, hs, hs', (congrArg ResolvedEntry.id hsame :), rfl, hkey, hsame, fun run => ⟨?_, ?_⟩⟩
  · rw [Resolver.call, hs]
  · have himplementation : e.implementation = e'.implementation :=
      (congrArg ResolvedEntry.implementation hsame :)
    rw [Resolver.call, hs', himplementation]

/-- The stages of this library in another order. -/
def reversed : Engine Unit :=
  { standard with
    stages := [.expandOptionalGroups, .tokenSynonyms (.ofPairs [("list", "array")]),
      .expandAlternatives, .bindNames] }

/-- Two entries that claim a key in common, with these defaults, and an alias of the second one. -/
def overlapping (first second : List (Value Unit)) : Description Unit :=
  (Description.ofOverloads [⟨"[string, list|object]", first, ⟨"first", 0, [], ()⟩⟩,
    ⟨"[string:text] [array:list]?", second, ⟨"second", 1, [], ()⟩⟩]).insert
      "[date]" (.aliasOf "[string:text] [array:list]?")

theorem withoutDefaults_overlapping (first second : List (Value Unit)) :
    (overlapping first second).withoutDefaults = overlapping [] [] := by
  simp only [overlapping, Description.ofOverloads, List.foldl_cons, List.foldl_nil,
    Description.insertOverload, Description.withoutDefaults_insert]
  rfl

/-- The call is filled up by the one and not by the other. -/
theorem compile_defaults_overlapping : ∃ r r' s s',
    reversed.compile (overlapping [] [.null, .array []]) = .ok r ∧
    reversed.compile (overlapping [.null] []) = .ok r' ∧
    r.table.keys.toList = [(⟨["string", "array"]⟩, ⟨1, "[string:text] [array:list]?"⟩),
      (⟨["string", "object"]⟩, ⟨0, "[string, list|object]"⟩),
      (⟨["string"]⟩, ⟨1, "[string:text] [array:list]?"⟩), (⟨["date"]⟩, ⟨1, "[date]"⟩)] ∧
    r.table.keys = r'.table.keys ∧ r.table.collisions = r'.table.collisions ∧
    r.select [.string "a"] = .ok s ∧ r'.select [.string "a"] = .ok s' ∧
    s.entry.id = s'.entry.id ∧ s.padding.length = 1 ∧ s'.padding.length = 0 := by
  have hstages : ∀ stage ∈ reversed.stages, stage.BuiltIn := by
    simp [reversed, Stage.BuiltIn]
  obtain ⟨r, hr, h⟩ : ∃ r, reversed.compile (overlapping [] [.null, .array []]) = .ok r ∧
      (r.table.keys.toList, r.table.contains (r.typeKey [.string "a"]),
        (r.select [.string "a"]).toOption.map (fun s => s.padding.length)) =
      ([(⟨["string", "array"]⟩, ⟨1, "[string:text] [array:list]?"⟩),
        (⟨["string", "object"]⟩, ⟨0, "[string, list|object]"⟩),
        (⟨["string"]⟩, ⟨1, "[string:text] [array:list]?"⟩), (⟨["date"]⟩, ⟨1, "[date]"⟩)], true,
        some 1) := exists_ok_of_toOption (by decide +kernel)
  simp only [Prod.mk.injEq] at h
  obtain ⟨hkeys, hhit, hselected⟩ := h
  obtain ⟨r', hr', hselected'⟩ : ∃ r', reversed.compile (overlapping [.null] []) = .ok r' ∧
      (r'.select [.string "a"]).toOption.map (fun s => s.padding.length) = some 0 :=
    exists_ok_of_toOption (by decide +kernel)
  obtain ⟨s, hs, hpadding⟩ := exists_ok_of_toOption hselected
  obtain ⟨s', hs', hpadding'⟩ := exists_ok_of_toOption hselected'
  have hd : (overlapping [] [.null, .array []]).withoutDefaults =
      (overlapping [.null] []).withoutDefaults := by
    rw [withoutDefaults_overlapping, withoutDefaults_overlapping]
  obtain ⟨hsame, hcollisions, _, hcalls⟩ := compile_defaults hstages hd hr hr'
  obtain ⟨s₀, s₀', hs₀, hs₀', hid, _⟩ := hcalls _ hhit
  rw [hs] at hs₀
  rw [hs'] at hs₀'
  cases hs₀
  cases hs₀'
  exact ⟨r, r', s, s', hr, hr', hkeys, hsame, hcollisions, hs, hs', hid, hpadding, hpadding'⟩

end Engine

end ShapeDispatch
