import ShapeDispatch.Proofs.Building
import ShapeDispatch.Resolver

/-!
Built tables are well formed, whatever planned entries they are built from: entries may share a source,
claim a key again, claim nothing or have no shape at all. The numbers that a table stores are
positions in its list of entries (`DispatchTable.WellFormed`), and so every one of them that is looked
up, shown or used to cut off defaults is in range (`DispatchTable.InRange`,
`buildTable_wellFormed`).
-/

namespace ShapeDispatch
variable {β : Type} {classifier : Classifier β} {planned : List (PlannedEntry β)}

/-- An entry of a table carries what a planned entry declares. -/
structure ResolvedEntry.Resolves (r : ResolvedEntry β) (e : PlannedEntry β) : Prop where
  source_eq : r.source = e.source
  method : ∃ implementation, e.target = .method implementation ∧
    r.implementation = implementation.bind e.paramNames
  paramNames_eq : r.paramNames = if e.paramNames.isEmpty then none else some e.paramNames
  defaults_eq : r.defaults = e.defaults

theorem resolves_resolveMethod {id : Nat} {e : PlannedEntry β} {implementation : Implementation β}
    (h : e.method? = some implementation) :
    (resolveMethod classifier id e implementation).Resolves e where
  source_eq := rfl
  method := ⟨implementation, PlannedEntry.method?_eq_some_iff.1 h, rfl⟩
  paramNames_eq := rfl
  defaults_eq := rfl

/-- The entries of a table are those that provide an implementation, in order. -/
theorem forall₂_resolveMethods (classifier : Classifier β) :
    ∀ (planned : List (PlannedEntry β)) (id : Nat),
      List.Forall₂ ResolvedEntry.Resolves (resolveMethods classifier id planned)
        (planned.filter (fun e => !e.isAlias))
  | [], _ => .nil
  | first :: rest, id => by
    rw [resolveMethods, List.filter_cons]
    cases hfirst : first.method? with
    | none =>
      have halias : first.isAlias = true := by rw [PlannedEntry.isAlias, hfirst, Option.isNone_none]
      rw [halias]
      exact forall₂_resolveMethods classifier rest id
    | some implementation =>
      have hmethod : first.isAlias = false := by
        rw [PlannedEntry.isAlias, hfirst, Option.isNone_some]
      rw [hmethod]
      exact .cons (resolves_resolveMethod hfirst) (forall₂_resolveMethods classifier rest (id + 1))

namespace DispatchTable
variable {t : DispatchTable β}

/-- What every built table has to do with the planned entries it was built from. -/
structure WellFormed (t : DispatchTable β) (classifier : Classifier β)
    (planned : List (PlannedEntry β)) : Prop where
  /-- The entries are those that provide an implementation, in order. -/
  entries_resolve :
    List.Forall₂ ResolvedEntry.Resolves t.entries (planned.filter (fun e => !e.isAlias))
  id_eq : ∀ {index e}, t.entry? index = some e → e.id = index
  slot_lt : ∀ {key slot}, t.slot? key = some slot → slot.entry < t.entries.length
  declaredBy_claims : ∀ {key slot}, t.slot? key = some slot →
    ∃ e ∈ planned, e.source = slot.declaredBy ∧ key ∈ e.claimedKeys
  padded_increasing : t.padded.Pairwise (· < ·)
  mem_padded_iff : ∀ {id}, id ∈ t.padded ↔ ∃ e, t.entry? id = some e ∧ e.defaults ≠ []
  length_defaultTokens : ∀ {e : ResolvedEntry β}, e ∈ t.entries →
    e.defaultTokens.length = e.defaults.length
  defaultTokens_eq : ∀ {e : ResolvedEntry β}, e ∈ t.entries → ∀ index : Nat,
    e.defaultTokens[index]? = e.defaults[index]?.map classifier.classify

/-- Whatever number a table stores for an entry, there is an entry of that number, and defaults are cut
off inside their list. -/
structure InRange (t : DispatchTable β) : Prop where
  lookup_eq : ∀ {key slot}, t.slot? key = some slot →
    ∃ e, t.entry? slot.entry = some e ∧ t.lookup key = some e
  padded_eq : t.padded.map t.entry? = t.paddedEntries.map some
  renderKey_eq : ∀ {key slot}, (key, slot) ∈ t.keys.toList → ∃ e, t.entry? slot.entry = some e ∧
    t.renderKey key slot =
      if e.source = slot.declaredBy then key.render ++ " => " ++ e.source
      else key.render ++ " => " ++ slot.declaredBy ++ " -> " ++ e.source
  padding_lt : ∀ (c : Classifier β) {args s}, t.lookup (c.typeKey args) = none →
    Resolver.select ⟨t, c⟩ args = .ok s → args.length < s.entry.defaults.length

namespace WellFormed
variable (h : t.WellFormed classifier planned)
include h

theorem exists_entry {key : Key} {slot : KeySlot} (hslot : t.slot? key = some slot) :
    ∃ e, t.entry? slot.entry = some e :=
  ⟨_, List.getElem?_eq_getElem (h.slot_lt hslot)⟩

/-- No id that is listed for its defaults is dropped. -/
theorem map_entry?_padded : t.padded.map t.entry? = t.paddedEntries.map some := by
  have hlisted : ∀ id ∈ t.padded, ∃ e, t.entry? id = some e := by
    intro id hid
    obtain ⟨e, he, _⟩ := h.mem_padded_iff.1 hid
    exact ⟨e, he⟩
  rw [paddedEntries]
  generalize t.padded = ids at hlisted
  induction ids with
  | nil => rfl
  | cons id ids ih =>
    obtain ⟨⟨e, he⟩, hids⟩ := List.forall_mem_cons.1 hlisted
    rw [List.map_cons, he, List.filterMap_cons_some he, List.map_cons, ih hids]

/-- An entry is selected for its defaults only if some of them are behind the arguments. -/
theorem length_lt_of_selectPadded? {key : Key} {e : ResolvedEntry β} {s : Selection β}
    (he : e ∈ t.entries) (hs : t.selectPadded? key e = some s) : key.length < e.defaults.length := by
  unfold selectPadded? at hs
  simp only at hs
  split at hs
  · next hfill =>
    have htail : key.length < e.defaultTokens.length := by simpa using hfill.1
    rwa [h.length_defaultTokens he] at htail
  · cases hs

theorem inRange : t.InRange where
  lookup_eq := by
    intro key slot hslot
    obtain ⟨e, he⟩ := h.exists_entry hslot
    exact ⟨e, he, by rw [lookup, hslot, Option.bind_some, he]⟩
  padded_eq := h.map_entry?_padded
  renderKey_eq := by
    intro key slot hslot
    obtain ⟨e, he⟩ := h.exists_entry (OrderedMap.find?_eq_some_iff.2 hslot)
    refine ⟨e, he, ?_⟩
    simp only [renderKey, he, Option.map_some, Option.getD_some]
  padding_lt := by
    intro c args s hmiss hs
    obtain ⟨hhit, _⟩ | ⟨hmem, hsel⟩ := Resolver.select_cases hs
    · have hnone : t.lookup (Resolver.typeKey ⟨t, c⟩ args) = none := hmiss
      rw [hnone] at hhit
      cases hhit
    · have hlt := h.length_lt_of_selectPadded? (t.paddedEntries_mem hmem) hsel
      rwa [Resolver.typeKey_length] at hlt

end WellFormed

theorem BuiltFrom.wellFormed {policy : CollisionPolicy} {claims : Claims planned}
    (h : t.BuiltFrom classifier claims) (hclaims : Claims.all policy planned = .ok claims) :
    t.WellFormed classifier planned where
  entries_resolve := by
    rw [h.entries_eq]
    exact forall₂_resolveMethods classifier planned 0
  id_eq := h.id_eq
  slot_lt := by
    intro key slot hslot
    obtain ⟨_, _, _, _, _, _, _, hlookup⟩ := h.exists_owner hslot
    rw [lookup, hslot, Option.bind_some, entry?] at hlookup
    exact (List.getElem?_eq_some_iff.1 hlookup).1
  declaredBy_claims := by
    intro key slot hslot
    obtain ⟨owner, _, _, howner, hsource, _⟩ := h.exists_owner hslot
    have hclaim := (Claims.settled_all hclaims).owner_mem howner
    exact ⟨planned.get owner, List.get_mem planned owner, hsource.symm, mem_claimSequence.1 hclaim⟩
  padded_increasing := by
    rw [h.padded_eq, List.pairwise_map]
    exact h.pairwise_id.filter _
  mem_padded_iff := by
    intro id
    rw [h.padded_eq]
    constructor
    · intro hid
      obtain ⟨e, he, rfl⟩ := List.mem_map.1 hid
      obtain ⟨hmem, hdefaults⟩ := List.mem_filter.1 he
      exact ⟨e, h.entry?_id hmem, by simpa using hdefaults⟩
    · rintro ⟨e, he, hdefaults⟩
      rw [← h.id_eq he]
      exact List.mem_map_of_mem (List.mem_filter.2 ⟨entry?_mem he, by simpa using hdefaults⟩)
  length_defaultTokens := by
    intro e he
    obtain ⟨_, _, _, _, hr⟩ := h.mem_entries he
    rw [hr, resolveMethod, List.length_map]
  defaultTokens_eq := by
    intro e he index
    obtain ⟨_, _, _, _, hr⟩ := h.mem_entries he
    rw [hr, resolveMethod, List.getElem?_map]

/-- The implementation of a planned entry stands at its id. -/
theorem BuiltFrom.exists_resolves {claims : Claims planned} (h : t.BuiltFrom classifier claims)
    {i : Position planned} {implementation : Implementation β}
    (hmethod : (planned.get i).method? = some implementation) :
    ∃ e, t.entry? (idAt planned i) = some e ∧ e.Resolves (planned.get i) := by
  have hget : planned[i.1]? = some (planned.get i) := by simp
  have hentry := getElem?_resolveMethods classifier 0 hget hmethod
  rw [← h.entries_eq] at hentry
  exact ⟨_, hentry, resolves_resolveMethod hmethod⟩

end DispatchTable

/-- WELL-FORMED TABLES: a table that is built holds the entries that provide an implementation, numbered
in order, lists those with defaults, and keeps the tokens of these. The slot of a key names an entry
that claims the key, and the number of an entry of the table: that of the implementation at the end of
the owner's aliases, which has its place among the ends of the chases. So all numbers that are looked
up later are in range as well. -/
theorem buildTable_wellFormed {config : EngineConfig} {t : DispatchTable β}
    (h : buildTable classifier config planned = .ok t) :
    t.WellFormed classifier planned ∧ t.InRange ∧
    ∃ claims ends, Claims.all config.collisionPolicy planned = .ok claims ∧
      terminals claims.owners config.maxAliasHops = .ok ends ∧
      t.keys.keys = claims.owners.keys ∧
      ∀ key owner, claims.owners.find? key = some owner → ∃ terminal e,
        ends[owner.1]? = some terminal ∧
        t.slot? key = some ⟨idAt planned terminal, (planned.get owner).source⟩ ∧
        t.entry? (idAt planned terminal) = some e ∧ e.Resolves (planned.get terminal) := by
  obtain ⟨claims, hclaims, hrest⟩ := bind_eq_ok.1 h
  obtain ⟨ends, hends, _⟩ := bind_eq_ok.1 hrest
  obtain ⟨claims', hclaims', ht⟩ := buildTable_eq_ok h
  obtain rfl := Except.ok.inj (hclaims.symm.trans hclaims')
  have hends := mapError_eq_ok.1 hends
  have hwellFormed := ht.wellFormed hclaims
  refine ⟨hwellFormed, hwellFormed.inRange, claims, ends, hclaims, hends, ht.keys_eq, ?_⟩
  intro key owner howner
  obtain ⟨terminal, hfollows, hslot⟩ := ht.slot_eq howner
  obtain ⟨terminal', hplace, hfollows'⟩ := getElem?_terminals hends owner
  obtain rfl := hfollows.unique hfollows'
  obtain ⟨implementation, hmethod⟩ := hfollows.method
  obtain ⟨e, he, hresolves⟩ := ht.exists_resolves hmethod
  exact ⟨terminal, e, hplace, hslot, he, hresolves⟩

/-- An entry that claims its key twice, an alias that claims the key of no tokens as well, and another
entry with the source of the first, which has defaults and claims nothing. -/
def unruly : List (PlannedEntry Unit) := [
  ⟨0, "[array]", ⟨[], none⟩, .method ⟨"first", 0, [], ()⟩, [], [],
    [[.single "array"], [.single "array"]]⟩,
  ⟨1, "[date]", ⟨[], none⟩, .aliasOf "[array]", [], [], [[.single "date"], []]⟩,
  ⟨2, "[array]", ⟨[], none⟩, .method ⟨"second", 1, [], ()⟩, [.null, .array []], ["list"], []⟩]

theorem buildTable_wellFormed_unruly : ∃ t, buildTable .standard .default unruly = .ok t ∧
    t.keys.toList = [(⟨["array"]⟩, ⟨0, "[array]"⟩), (⟨["date"]⟩, ⟨1, "[date]"⟩),
      (⟨[]⟩, ⟨1, "[date]"⟩)] ∧
    t.padded = [1] ∧ t.entries.map ResolvedEntry.defaultTokens = [[], ["null", "array"]] ∧
    t.WellFormed .standard unruly ∧ t.InRange := by
  obtain ⟨t, ht, h⟩ : ∃ t, buildTable .standard .default unruly = .ok t ∧
      (t.keys.toList, t.padded, t.entries.map ResolvedEntry.defaultTokens) =
        ([(⟨["array"]⟩, ⟨0, "[array]"⟩), (⟨["date"]⟩, ⟨1, "[date]"⟩), (⟨[]⟩, ⟨1, "[date]"⟩)], [1],
          [[], ["null", "array"]]) := exists_ok_of_toOption (by decide +kernel)
  obtain ⟨hkeys, h⟩ := Prod.ext_iff.1 h
  obtain ⟨hpadded, htokens⟩ := Prod.ext_iff.1 h
  obtain ⟨hwellFormed, hrange, _⟩ := buildTable_wellFormed ht
  exact ⟨t, ht, hkeys, hpadded, htokens, hwellFormed, hrange⟩

end ShapeDispatch
