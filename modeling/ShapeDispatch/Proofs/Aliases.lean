import ShapeDispatch.Proofs.Reordering
import ShapeDispatch.Proofs.Routing

/-!
What aliases come to. Following one ends at an implementation, at a target that is missing, at an entry
met before or at the limit, and each of these outcomes says where the way went; a table is built
unless some way ends badly, and the earliest of those is the error (`buildTable_chases`). In a
compiled table the keys of an alias lead where the text of its target does: to the end of that entry's
own aliases or, if no entry has the text, to where the key that it spells leads (`compile_aliases`).
-/

namespace ShapeDispatch
variable {β : Type}

/-- CHASES: a chase comes to exactly one outcome, the verdict at the end of a trail of at most as many
hops as it may take. Once the claims are settled, building fails exactly if some chase does, and then
with the failure of the earliest entry whose chase fails. -/
theorem buildTable_chases (classifier : Classifier β) (config : EngineConfig)
    (planned : List (PlannedEntry β)) :
    (∀ (find? : String → Option (Position planned)) (limit : Nat) (start : Position planned),
      (∃! outcome, Chased find? limit start outcome) ∧
        ∀ outcome, chase find? limit start = outcome ↔ Chased find? limit start outcome) ∧
    ∀ claims, Claims.all config.collisionPolicy planned = .ok claims →
      ((∃ error, buildTable classifier config planned = .error error) ↔
        ∃ i e, chase (findTarget? claims.owners) config.maxAliasHops i = .error e) ∧
      ∀ error, buildTable classifier config planned = .error error ↔ ∃ i e, error = .unresolved e ∧
        chase (findTarget? claims.owners) config.maxAliasHops i = .error e ∧
        ∀ j < i, ∃ terminal,
          chase (findTarget? claims.owners) config.maxAliasHops j = .ok terminal := by
  refine ⟨fun find? limit start => ⟨⟨_, chase_eq_iff.1 rfl, ?_⟩, fun _ => chase_eq_iff⟩, ?_⟩
  · intro outcome houtcome
    exact (chase_eq_iff.2 houtcome).symm
  · intro claims hclaims
    refine ⟨⟨?_, ?_⟩, fun _ => buildTable_eq_error_iff hclaims⟩
    · rintro ⟨error, herror⟩
      obtain ⟨i, e, _, hi, _⟩ := (buildTable_eq_error_iff hclaims).1 herror
      exact ⟨i, e, hi⟩
    · rintro ⟨i, e, hi⟩
      cases hbuild : buildTable classifier config planned with
      | error error => exact ⟨error, rfl⟩
      | ok t =>
        obtain ⟨claims', hclaims', hchase⟩ := exists_buildTable_iff.1 ⟨t, hbuild⟩
        rw [hclaims] at hclaims'
        cases hclaims'
        obtain ⟨terminal, hterminal⟩ := hchase i
        rw [hi] at hterminal
        cases hterminal

/-- An alias of the first of two aliases of each other, behind an entry with an implementation. -/
def lasso : Description Unit :=
  (((Description.empty.insert "[number]" (.method ⟨"number", 0, [], ()⟩)).insert
    "[a]" (.aliasOf "[b]")).insert "[b]" (.aliasOf "[c]")).insert "[c]" (.aliasOf "[b]")

theorem buildTable_chases_lasso : ∃ planned claims i, Engine.standard.plan lasso = .ok planned ∧
    Claims.all .lastDeclaredWins planned = .ok claims ∧
    buildTable .standard .default planned =
      .error (.unresolved (.cycle "[a]" ["[a]", "[b]", "[c]", "[b]"])) ∧
    Chased (findTarget? claims.owners) 4 i (.error (.cycle "[a]" ["[a]", "[b]", "[c]", "[b]"])) := by
  obtain ⟨planned, hplan, h⟩ : ∃ planned, Engine.standard.plan lasso = .ok planned ∧
      (failure? (buildTable .standard .default planned),
        (Claims.all .lastDeclaredWins planned).toOption.isSome) =
        (some (.unresolved (.cycle "[a]" ["[a]", "[b]", "[c]", "[b]"])), true) :=
    exists_ok_of_toOption (by decide +kernel)
  obtain ⟨hbuild, hclaims⟩ := Prod.ext_iff.1 h
  have hbuild := failure?_eq_some.1 hbuild
  obtain ⟨claims, hclaims⟩ := Option.isSome_iff_exists.1 hclaims
  have hclaims := toOption_eq_some.1 hclaims
  obtain ⟨hchase, hfailure⟩ := buildTable_chases .standard .default planned
  obtain ⟨i, e, he, hi, _⟩ := ((hfailure claims hclaims).2 _).1 hbuild
  cases he
  exact ⟨planned, claims, i, hplan, hclaims, hbuild, ((hchase _ _ _).2 _).1 hi⟩

namespace Description

theorem Names.unique {d : Description β} {t : DispatchTable β} {text source other : String}
    (h : d.Names t text source) (hother : d.Names t text other) : source = other := by
  cases h with
  | declared hdeclared =>
    cases hother with
    | declared _ => rfl
    | spelled hnone _ _ _ =>
      rw [hdeclared] at hnone
      cases hnone
  | spelled hnone hread hexpand hslot =>
    cases hother with
    | declared hdeclared =>
      rw [hdeclared] at hnone
      cases hnone
    | spelled _ hread' hexpand' hslot' =>
      rw [hread] at hread'
      cases hread'
      rw [hexpand] at hexpand'
      cases hexpand'
      rw [hslot] at hslot'
      cases hslot'
      rfl

/-- A text that no entry has names an entry through the only key that it spells. -/
theorem Names.of_undeclared {d : Description β} {t : DispatchTable β} {text source : String}
    (h : d.Names t text source) (hnone : d.find? text = none) :
    ∃ signature key slot, Signature.read text = .ok signature ∧ signature.expand = [key] ∧
      t.slot? key = some slot ∧ slot.declaredBy = source := by
  cases h with
  | declared hentry =>
    rw [hnone] at hentry
    cases hentry
  | spelled _ hread hexpand hslot => exact ⟨_, _, _, hread, hexpand, hslot, rfl⟩

/-- Aliases lead to one entry only. -/
theorem LeadsTo.unique {d : Description β} {t : DispatchTable β} {source terminal other : String}
    (h : d.LeadsTo t source terminal) (hother : d.LeadsTo t source other) : terminal = other := by
  induction h with
  | here hentry hmethod =>
    cases hother with
    | here _ _ => rfl
    | hop hentry' halias _ _ =>
      rw [hentry] at hentry'
      cases hentry'
      rw [hmethod] at halias
      cases halias
  | hop hentry halias hnames _ ih =>
    cases hother with
    | here hentry' hmethod =>
      rw [hentry] at hentry'
      cases hentry'
      rw [hmethod] at halias
      cases halias
    | hop hentry' halias' hnames' hother =>
      rw [hentry] at hentry'
      cases hentry'
      rw [halias] at halias'
      cases halias'
      obtain rfl := hnames.unique hnames'
      exact ih hother

/-- The keys that an entry declares are those that its planned entry owns. -/
theorem PlannedAs.owner_of_declaredBy {d : Description β} {planned : List (PlannedEntry β)}
    {classifier : Classifier β} {claims : Claims planned} {t : DispatchTable β} {key : Key}
    {slot : KeySlot} (h : d.PlannedAs planned) (ht : t.BuiltFrom classifier claims)
    (hslot : t.slot? key = some slot) {i : Position planned}
    (hi : slot.declaredBy = (planned.get i).source) : claims.owners.find? key = some i := by
  obtain ⟨owner, _, _, howner, hsource, _⟩ := ht.exists_owner hslot
  rw [howner, sourceAt_injective h.nodup_sources (hsource.symm.trans hi)]

end Description

/-- Calls with this key are handled by this entry, filled up with its own defaults. -/
def Resolver.Handles (r : Resolver β) (key : Key) (e : ResolvedEntry β) : Prop :=
  r.table.lookup key = some e ∧ ∀ args, r.typeKey args = key →
    r.select args = .ok ⟨e, key, e.defaults.drop args.length⟩

theorem Resolver.handles_of_lookup {r : Resolver β} {key : Key} {e : ResolvedEntry β}
    (h : r.table.lookup key = some e) : r.Handles key e := by
  refine ⟨h, ?_⟩
  rintro args rfl
  exact select_of_lookup h

/-- ALIASES: all keys that an alias declares are handled by one entry. If its target is the text of an
entry, it is the one that this entry's own aliases lead to; otherwise the target reads as a signature
that expands to a single key, which is in the table and is handled by the same entry. -/
theorem compile_aliases {engine : Engine β} {d : Description β} {r : Resolver β}
    {source text : String} (hs : engine.stages = Stage.standard) (h : engine.compile d = .ok r)
    (halias : d.find? source = some (.aliasOf text)) :
    ∃ e ∈ r.table.entries,
      (∀ key slot, r.table.slot? key = some slot → slot.declaredBy = source → r.Handles key e) ∧
      (∀ entry, d.find? text = some entry → d.LeadsTo r.table text e.source ∧
        (∀ other, d.LeadsTo r.table text other → other = e.source) ∧
        ∀ key slot, r.table.slot? key = some slot → slot.declaredBy = text → r.Handles key e) ∧
      (d.find? text = none → ∃ signature key, Signature.read text = .ok signature ∧
        signature.expand = [key] ∧ r.table.contains key = true ∧ r.Handles key e) := by
  obtain ⟨_, planned, hplan, hbuild⟩ := Engine.compile_eq_ok_iff.1 h
  obtain ⟨claims, hclaims, ht⟩ := buildTable_eq_ok hbuild
  have hd := Engine.plan_standard hs hplan
  obtain ⟨i, hstands⟩ := hd.exists_of_find? halias
  obtain ⟨terminal, hfollows⟩ := exists_follows_of_buildTable hbuild hclaims i
  obtain ⟨next, hnext, hrest⟩ := hfollows.of_aliasOf hstands.target_eq
  have hnames := hd.names_of_findTarget? ht hnext
  have hleads := hd.leadsTo_of_follows ht hrest
  obtain ⟨method, hmethod⟩ := hfollows.method
  obtain ⟨e, he, hsource, hlookup⟩ := ht.exists_entry_of_method hmethod
  rw [← hsource] at hleads
  refine ⟨e, he, ?_, ?_, ?_⟩
  · intro key slot hslot hdeclared
    have howner := hd.owner_of_declaredBy ht hslot (hdeclared.trans hstands.source_eq.symm)
    exact r.handles_of_lookup (hlookup hfollows howner)
  · intro entry hentry
    have htext : text = (planned.get next).source := (Description.Names.declared hentry).unique hnames
    rw [← htext] at hleads
    refine ⟨hleads, fun _ hother => hother.unique hleads, fun key slot hslot hdeclared => ?_⟩
    have howner := hd.owner_of_declaredBy ht hslot (hdeclared.trans htext)
    exact r.handles_of_lookup (hlookup hrest howner)
  · intro hnone
    obtain ⟨signature, key, slot, hread, hexpand, hslot, hdeclared⟩ := hnames.of_undeclared hnone
    have howner := hd.owner_of_declaredBy ht hslot hdeclared
    exact ⟨signature, key, hread, hexpand, Option.isSome_iff_exists.2 ⟨slot, hslot⟩,
      r.handles_of_lookup (hlookup hrest howner)⟩

/-- An alias of the alias of a key that was taken over. -/
def renamed : Description Unit := overlapping.insert "[string]" (.aliasOf "[date]")

theorem compile_aliases_renamed : ∃ r, Engine.standard.compile renamed = .ok r ∧
    (∃ e, r.Handles ⟨["date"]⟩ e ∧ r.Handles ⟨["object", "array"]⟩ e) ∧
    ∃ e, r.Handles ⟨["string"]⟩ e ∧ renamed.LeadsTo r.table "[date]" e.source ∧
      e.source = "[object, array] [number]?" := by
  obtain ⟨r, hr, h⟩ : ∃ r, Engine.standard.compile renamed = .ok r ∧
      (r.table.slot? ⟨["date"]⟩, r.table.slot? ⟨["string"]⟩,
        (r.table.lookup ⟨["string"]⟩).map ResolvedEntry.source) =
        (some ⟨1, "[date]"⟩, some ⟨1, "[string]"⟩, some "[object, array] [number]?") :=
    exists_ok_of_toOption (by decide +kernel)
  simp only [Prod.mk.injEq] at h
  obtain ⟨hdate, hstring, hsource⟩ := h
  obtain ⟨signature, hread, hexpand⟩ : ∃ signature, Signature.read "[object, array]" =
      .ok signature ∧ signature.expand = [⟨["object", "array"]⟩] :=
    exists_ok_of_toOption (by decide +kernel)
  refine ⟨r, hr, ?_, ?_⟩
  · obtain ⟨e, _, hkeys, _, hspelled⟩ :=
      @compile_aliases _ _ _ _ "[date]" "[object, array]" rfl hr rfl
    obtain ⟨signature', key, hread', hexpand', _, hhandles⟩ := hspelled rfl
    rw [hread] at hread'
    cases hread'
    rw [hexpand] at hexpand'
    cases hexpand'
    exact ⟨e, hkeys _ _ hdate rfl, hhandles⟩
  · obtain ⟨e, _, hkeys, hdeclared, _⟩ :=
      @compile_aliases _ _ _ _ "[string]" "[date]" rfl hr rfl
    have hhandles := hkeys _ _ hstring rfl
    rw [hhandles.1] at hsource
    exact ⟨e, hhandles, (hdeclared _ rfl).1, Option.some.inj hsource⟩

end ShapeDispatch
