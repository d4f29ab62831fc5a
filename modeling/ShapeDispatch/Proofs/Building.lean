import ShapeDispatch.Proofs.Chasing
import ShapeDispatch.Proofs.Claiming
import ShapeDispatch.Table.Build

/-!
How a table stands to the planned entries that it was built from: its implementations are those of
the planned entries, numbered in order, and the slot of a key names the owner of the key and leads to
the entry at the end of the owner's aliases (`DispatchTable.BuiltFrom`, `buildTable_eq_ok`).
-/

namespace ShapeDispatch
variable {β : Type} {classifier : Classifier β} {planned : List (PlannedEntry β)}

/-- The implementation of a planned entry stands at its id. -/
theorem getElem?_resolveMethods (classifier : Classifier β) :
    ∀ {planned : List (PlannedEntry β)} {position : Nat} {e : PlannedEntry β}
      {method : Implementation β} (id : Nat),
    planned[position]? = some e → e.method? = some method →
      (resolveMethods classifier id planned)[idAt planned position]? =
        some (resolveMethod classifier (id + idAt planned position) e method)
  | first :: rest, 0, e, method, id, he, hm => by
    cases he
    simp [resolveMethods, idAt, hm]
  | first :: rest, position + 1, e, method, id, he, hm => by
    rw [List.getElem?_cons_succ] at he
    cases hfirst : first.method? with
    | none =>
      have hid : idAt (first :: rest) (position + 1) = idAt rest position := by
        simp [idAt, PlannedEntry.isAlias, hfirst]
      simpa [resolveMethods, hfirst, hid] using getElem?_resolveMethods classifier id he hm
    | some m =>
      have hid : idAt (first :: rest) (position + 1) = idAt rest position + 1 := by
        simp [idAt, PlannedEntry.isAlias, hfirst]
      have ih := getElem?_resolveMethods classifier (id + 1) he hm
      rw [resolveMethods, hfirst, hid, List.getElem?_cons_succ, ih]
      congr 2
      omega

theorem mem_resolveMethods : ∀ {planned : List (PlannedEntry β)} {id : Nat} {r : ResolvedEntry β},
    r ∈ resolveMethods classifier id planned →
      ∃ e ∈ planned, ∃ method, e.method? = some method ∧
        r = resolveMethod classifier r.id e method
  | first :: rest, id, r, h => by
    rw [resolveMethods] at h
    split at h
    · next m hm =>
      rcases List.mem_cons.1 h with rfl | h
      · exact ⟨first, by simp, m, hm, rfl⟩
      · obtain ⟨e, he, h⟩ := mem_resolveMethods h
        exact ⟨e, List.mem_cons_of_mem _ he, h⟩
    · obtain ⟨e, he, h⟩ := mem_resolveMethods h
      exact ⟨e, List.mem_cons_of_mem _ he, h⟩

theorem id_resolveMethods : ∀ {planned : List (PlannedEntry β)} {id index : Nat}
    {r : ResolvedEntry β}, (resolveMethods classifier id planned)[index]? = some r →
      r.id = id + index
  | first :: rest, id, index, r, h => by
    rw [resolveMethods] at h
    split at h
    · cases index with
      | zero =>
        cases h
        rfl
      | succ index =>
        rw [List.getElem?_cons_succ] at h
        have ih := id_resolveMethods h
        omega
    · exact id_resolveMethods h

/-- What a table has to do with the planned entries it was built from and with their claims. -/
structure DispatchTable.BuiltFrom (t : DispatchTable β) (classifier : Classifier β)
    (claims : Claims planned) : Prop where
  keys_eq : t.keys.keys = claims.owners.keys
  entries_eq : t.entries = resolveMethods classifier 0 planned
  padded_eq : t.padded = (t.entries.filter (fun e => !e.defaults.isEmpty)).map ResolvedEntry.id
  collisions_eq : t.collisions = claims.collisions
  slot_eq : ∀ {key owner}, claims.owners.find? key = some owner → ∃ terminal,
    Follows (findTarget? claims.owners) owner terminal ∧
      t.slot? key = some ⟨idAt planned terminal, (planned.get owner).source⟩

theorem buildTable_eq_ok {config : EngineConfig} {t : DispatchTable β}
    (h : buildTable classifier config planned = .ok t) :
    ∃ claims, Claims.all config.collisionPolicy planned = .ok claims ∧
      t.BuiltFrom classifier claims := by
  obtain ⟨claims, hclaims, h⟩ := bind_eq_ok.1 h
  obtain ⟨ends, hends, h⟩ := bind_eq_ok.1 h
  cases h
  refine ⟨claims, hclaims, OrderedMap.keys_mapValues _ _, rfl, rfl, rfl, ?_⟩
  intro key owner howner
  obtain ⟨terminal, hterminal, hfollows⟩ := getElem?_terminals (mapError_eq_ok.1 hends) owner
  refine ⟨terminal, hfollows, ?_⟩
  rw [DispatchTable.slot?, OrderedMap.find?_mapValues, howner, Option.map_some, slotOf,
    List.getD_eq_getElem?_getD, hterminal, Option.getD_some]

/-- Building succeeds exactly if all claims are settled and every chase ends. -/
theorem exists_buildTable_iff {config : EngineConfig} :
    (∃ t, buildTable classifier config planned = .ok t) ↔
      ∃ claims, Claims.all config.collisionPolicy planned = .ok claims ∧ ∀ i, ∃ terminal,
        chase (findTarget? claims.owners) config.maxAliasHops i = .ok terminal := by
  constructor
  · rintro ⟨t, h⟩
    obtain ⟨claims, hclaims, h⟩ := bind_eq_ok.1 h
    obtain ⟨ends, hends, _⟩ := bind_eq_ok.1 h
    refine ⟨claims, hclaims, fun i => ?_⟩
    exact exists_mapM_eq_ok_iff.1 ⟨ends, mapError_eq_ok.1 hends⟩ i (List.mem_finRange i)
  · rintro ⟨claims, hclaims, hchase⟩
    obtain ⟨ends, hends⟩ := exists_mapM_eq_ok_iff.2
      (fun i (_ : i ∈ List.finRange planned.length) => hchase i)
    exact ⟨_, bind_eq_ok.2 ⟨claims, hclaims, bind_eq_ok.2 ⟨ends, mapError_eq_ok.2 hends, rfl⟩⟩⟩

/-- Once the claims are settled, building fails for the earliest entry whose chase fails. -/
theorem buildTable_eq_error_iff {config : EngineConfig} {claims : Claims planned}
    (hclaims : Claims.all config.collisionPolicy planned = .ok claims) {error : CompileError} :
    buildTable classifier config planned = .error error ↔ ∃ i e, error = .unresolved e ∧
      chase (findTarget? claims.owners) config.maxAliasHops i = .error e ∧
      ∀ j < i, ∃ terminal,
        chase (findTarget? claims.owners) config.maxAliasHops j = .ok terminal := by
  constructor
  · intro h
    rcases bind_eq_error.1 h with h | ⟨claims', hclaims', h⟩
    · rw [hclaims] at h
      cases h
    · rw [hclaims] at hclaims'
      cases hclaims'
      rcases bind_eq_error.1 h with hends | ⟨_, _, h⟩
      · obtain ⟨e, hfails, rfl⟩ := mapError_eq_error.1 hends
        obtain ⟨i, hi, hbefore⟩ := mapM_finRange_eq_error.1 hfails
        exact ⟨i, e, rfl, hi, hbefore⟩
      · cases h
  · rintro ⟨i, e, rfl, hi, hbefore⟩
    refine bind_eq_error.2 (.inr ⟨claims, hclaims, bind_eq_error.2 (.inl ?_)⟩)
    exact mapError_eq_error.2 ⟨e, mapM_finRange_eq_error.2 ⟨i, hi, hbefore⟩, rfl⟩

/-- In a table every entry leads somewhere. -/
theorem exists_follows_of_buildTable {config : EngineConfig} {t : DispatchTable β}
    (h : buildTable classifier config planned = .ok t) {claims : Claims planned}
    (hclaims : Claims.all config.collisionPolicy planned = .ok claims) (i : Position planned) :
    ∃ terminal, Follows (findTarget? claims.owners) i terminal := by
  obtain ⟨claims', hclaims', hchase⟩ := exists_buildTable_iff.1 ⟨t, h⟩
  rw [hclaims] at hclaims'
  cases hclaims'
  obtain ⟨terminal, hterminal⟩ := hchase i
  exact ⟨terminal, chase_follows hterminal⟩

/-- In a table the targets of all aliases are found. -/
theorem exists_target_of_buildTable {config : EngineConfig} {t : DispatchTable β}
    (h : buildTable classifier config planned = .ok t) {claims : Claims planned}
    (hclaims : Claims.all config.collisionPolicy planned = .ok claims) {e : PlannedEntry β}
    (he : e ∈ planned) {text : String} (halias : e.target = .aliasOf text) :
    ∃ found, findTarget? claims.owners text = some found := by
  obtain ⟨i, rfl⟩ := List.get_of_mem he
  obtain ⟨_, hfollows⟩ := exists_follows_of_buildTable h hclaims i
  obtain ⟨found, hfound, _⟩ := hfollows.of_aliasOf halias
  exact ⟨found, hfound⟩

namespace DispatchTable.BuiltFrom
variable {t : DispatchTable β} {claims : Claims planned} {key : Key} {slot : KeySlot}

theorem slot?_eq_none_iff (h : t.BuiltFrom classifier claims) :
    t.slot? key = none ↔ claims.owners.find? key = none := by
  rw [slot?, OrderedMap.find?_eq_none_iff, OrderedMap.find?_eq_none_iff, h.keys_eq]

/-- The implementations stand at their ids. -/
theorem entry?_idAt (h : t.BuiltFrom classifier claims) {terminal : Position planned}
    {method : Implementation β} (hmethod : (planned.get terminal).method? = some method) :
    t.entry? (idAt planned terminal) =
      some (resolveMethod classifier (idAt planned terminal) (planned.get terminal) method) := by
  have hget : planned[terminal.1]? = some (planned.get terminal) := by simp
  have hentry := getElem?_resolveMethods classifier 0 hget hmethod
  rw [Nat.zero_add] at hentry
  rw [DispatchTable.entry?, h.entries_eq, hentry]

/-- The slot of a key names its owner and the entry that the owner's aliases lead to. -/
theorem exists_owner (h : t.BuiltFrom classifier claims) (hslot : t.slot? key = some slot) :
    ∃ owner terminal method, claims.owners.find? key = some owner ∧
      slot.declaredBy = (planned.get owner).source ∧
      Follows (findTarget? claims.owners) owner terminal ∧
      (planned.get terminal).method? = some method ∧
      t.lookup key = some (resolveMethod classifier slot.entry (planned.get terminal) method) := by
  cases howner : claims.owners.find? key with
  | none =>
    rw [h.slot?_eq_none_iff.2 howner] at hslot
    cases hslot
  | some owner =>
    obtain ⟨terminal, hfollows, hslot'⟩ := h.slot_eq howner
    obtain ⟨method, hmethod⟩ := hfollows.method
    rw [hslot] at hslot'
    cases hslot'
    refine ⟨owner, terminal, method, rfl, rfl, hfollows, hmethod, ?_⟩
    rw [lookup, hslot, Option.bind_some, h.entry?_idAt hmethod]

/-- All keys of entries whose aliases lead to one implementation lead to it. -/
theorem exists_entry_of_method (h : t.BuiltFrom classifier claims) {terminal : Position planned}
    {method : Implementation β} (hmethod : (planned.get terminal).method? = some method) :
    ∃ e ∈ t.entries, e.source = (planned.get terminal).source ∧ ∀ {owner key},
      Follows (findTarget? claims.owners) owner terminal →
        claims.owners.find? key = some owner → t.lookup key = some e := by
  have hentry := h.entry?_idAt hmethod
  refine ⟨_, List.mem_of_getElem? hentry, rfl, fun {owner key} hfollows howner => ?_⟩
  obtain ⟨terminal', hfollows', hslot⟩ := h.slot_eq howner
  obtain rfl := hfollows.unique hfollows'
  rw [lookup, hslot, Option.bind_some, hentry]

/-- A key leads to the entry at the end of its owner's aliases. -/
theorem lookup_of_follows (h : t.BuiltFrom classifier claims) {owner terminal : Position planned}
    (howner : claims.owners.find? key = some owner)
    (hfollows : Follows (findTarget? claims.owners) owner terminal) :
    ∃ id method, (planned.get terminal).method? = some method ∧
      t.lookup key = some (resolveMethod classifier id (planned.get terminal) method) := by
  obtain ⟨_, _, hslot⟩ := h.slot_eq howner
  obtain ⟨_, terminal', method, howner', _, hfollows', hmethod, hlookup⟩ := h.exists_owner hslot
  rw [howner] at howner'
  cases howner'
  obtain rfl := hfollows.unique hfollows'
  exact ⟨_, method, hmethod, hlookup⟩

/-- The slots name the owners. -/
theorem map_declaredBy (h : t.BuiltFrom classifier claims) (key : Key) :
    (t.slot? key).map KeySlot.declaredBy =
      (claims.owners.find? key).map (fun owner => (planned.get owner).source) := by
  cases howner : claims.owners.find? key with
  | none => rw [h.slot?_eq_none_iff.2 howner, Option.map_none, Option.map_none]
  | some owner =>
    obtain ⟨_, _, hslot⟩ := h.slot_eq howner
    rw [hslot, Option.map_some, Option.map_some]

/-- The table handles exactly the keys that it holds. -/
theorem lookup_eq_none_iff (h : t.BuiltFrom classifier claims) :
    t.lookup key = none ↔ t.contains key = false := by
  rw [contains, OrderedMap.contains, Option.isSome_eq_false_iff, Option.isNone_iff_eq_none]
  constructor
  · intro hnone
    by_contra hsome
    obtain ⟨slot, hslot⟩ := Option.ne_none_iff_exists'.1 hsome
    obtain ⟨_, _, _, _, _, _, _, hlookup⟩ := h.exists_owner hslot
    rw [hnone] at hlookup
    cases hlookup
  · intro hnone
    rw [lookup, slot?, hnone, Option.bind_none]

theorem id_eq (h : t.BuiltFrom classifier claims) {index : Nat} {e : ResolvedEntry β}
    (he : t.entry? index = some e) : e.id = index := by
  unfold entry? at he
  rw [h.entries_eq] at he
  rw [id_resolveMethods he, Nat.zero_add]

theorem entry?_id (h : t.BuiltFrom classifier claims) {e : ResolvedEntry β}
    (he : e ∈ t.entries) : t.entry? e.id = some e := by
  obtain ⟨index, hindex⟩ := List.mem_iff_getElem?.1 he
  rw [h.id_eq hindex]
  exact hindex

theorem pairwise_id (h : t.BuiltFrom classifier claims) :
    t.entries.Pairwise (fun before behind => before.id < behind.id) := by
  rw [List.pairwise_iff_getElem]
  intro i j hi hj hij
  have hat : ∀ (n : Nat) (hn : n < t.entries.length), t.entries[n].id = n :=
    fun n hn => h.id_eq (List.getElem?_eq_getElem hn)
  rw [hat i hi, hat j hj]
  exact hij

theorem mem_entries (h : t.BuiltFrom classifier claims) {r : ResolvedEntry β}
    (hr : r ∈ t.entries) : ∃ e ∈ planned, ∃ method, e.method? = some method ∧
      r = resolveMethod classifier r.id e method := by
  rw [h.entries_eq] at hr
  exact mem_resolveMethods hr

/-- The entries with defaults, in the order of their ids. -/
theorem paddedEntries_eq (h : t.BuiltFrom classifier claims) :
    t.paddedEntries = t.entries.filter (fun e => !e.defaults.isEmpty) := by
  rw [paddedEntries, h.padded_eq, List.filterMap_map]
  refine (List.filterMap_congr ?_).trans List.filterMap_some
  intro e he
  exact h.entry?_id (List.mem_filter.1 he).1

end DispatchTable.BuiltFrom

/-- An implementation of a table is the one declared under its source, with the names and the defaults
declared there. -/
def Description.Provides (d : Description β) (r : ResolvedEntry β) : Prop :=
  ∃ entry method signature, d.find? r.source = some entry ∧ entry.target = .method method ∧
    Signature.read (entry.signatureText r.source) = .ok signature ∧
    r.implementation = method.bind signature.paramNames ∧ r.defaults = entry.defaults

theorem Description.PlannedAs.provides {d : Description β} {t : DispatchTable β}
    {claims : Claims planned} (h : d.PlannedAs planned) (ht : t.BuiltFrom classifier claims)
    {r : ResolvedEntry β} (hr : r ∈ t.entries) : d.Provides r := by
  obtain ⟨e, he, method, hmethod, hr⟩ := ht.mem_entries hr
  obtain ⟨entry, hentry, hstands⟩ := h.find?_source he
  rw [hr]
  refine ⟨entry, method, e.signature, hentry, ?_, hstands.read, ?_, hstands.defaults_eq⟩
  · rw [← hstands.target_eq]
    exact PlannedEntry.method?_eq_some_iff.1 hmethod
  · rw [← hstands.names_eq]
    rfl

theorem Engine.compile_eq_ok_iff {engine : Engine β} {d : Description β} {r : Resolver β} :
    engine.compile d = .ok r ↔ r.classifier = engine.classifier ∧
      ∃ planned, engine.plan d = .ok planned ∧
        ShapeDispatch.buildTable engine.classifier engine.config planned = .ok r.table := by
  constructor
  · intro h
    obtain ⟨t, ht, h⟩ := bind_eq_ok.1 h
    cases h
    exact ⟨rfl, bind_eq_ok.1 ht⟩
  · rintro ⟨hclassifier, hbuild⟩
    refine bind_eq_ok.2 ⟨r.table, bind_eq_ok.2 hbuild, ?_⟩
    rw [← hclassifier]

/-- What compilation went through: the planned entries, their claims and the table of both. -/
theorem Engine.compile_eq_ok {engine : Engine β} {d : Description β} {r : Resolver β}
    (h : engine.compile d = .ok r) :
    ∃ planned, engine.plan d = .ok planned ∧
      ∃ claims, Claims.all engine.config.collisionPolicy planned = .ok claims ∧
        r.table.BuiltFrom r.classifier claims := by
  obtain ⟨hclassifier, planned, hplan, ht⟩ := Engine.compile_eq_ok_iff.1 h
  rw [hclassifier]
  exact ⟨planned, hplan, buildTable_eq_ok ht⟩

end ShapeDispatch
