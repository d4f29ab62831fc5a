import ShapeDispatch.Proofs.Building

/-!
Routing. Under the standard stages a table can be read off the description: it holds the token lists
that some entry's signature accepts, the collision policy says which of those entries a key belongs
to, and the aliases from there lead to the implementation (`compile_routes`).
-/

namespace ShapeDispatch
variable {β : Type}

namespace Description

/-- The signature of the entry at a position accepts the tokens. -/
def AcceptsAt (d : Description β) (position : Nat) (tokens : List String) : Prop :=
  ∃ source entry signature, d.toList[position]? = some (source, entry) ∧
    Signature.read (entry.signatureText source) = .ok signature ∧ signature.Accepts tokens

/-- What the signatures expand to, entry by entry in the order declared. -/
def expansions (d : Description β) : List Key :=
  d.toList.flatMap (fun (source, entry) =>
    match Signature.read (entry.signatureText source) with
    | .ok signature => signature.expand
    | .error _ => [])

/-- The entry that the target of an alias names: the one of that text or, if there is none, the one
that declares the only key which the text spells. -/
inductive Names (d : Description β) (t : DispatchTable β) : String → String → Prop where
  | declared {text : String} {entry : Entry β} : d.find? text = some entry → Names d t text text
  | spelled {text : String} {signature : Signature} {key : Key} {slot : KeySlot} :
    d.find? text = none → Signature.read text = .ok signature → signature.expand = [key] →
      t.slot? key = some slot → Names d t text slot.declaredBy

/-- The aliases from one entry lead to another, which has an implementation. -/
inductive LeadsTo (d : Description β) (t : DispatchTable β) : String → String → Prop where
  | here {source : String} {entry : Entry β} {method : Implementation β} :
    d.find? source = some entry → entry.target = .method method → LeadsTo d t source source
  | hop {source text next terminal : String} {entry : Entry β} :
    d.find? source = some entry → entry.target = .aliasOf text → Names d t text next →
      LeadsTo d t next terminal → LeadsTo d t source terminal

end Description

namespace Description.PlannedAs
variable {d : Description β} {planned : List (PlannedEntry β)}

/-- A position accepts the tokens exactly if its planned entry claims them. -/
theorem acceptsAt_iff (h : d.PlannedAs planned) {position : Nat} {tokens : List String} :
    d.AcceptsAt position tokens ↔
      ∃ i : Position planned, i.1 = position ∧ (⟨tokens⟩, i) ∈ claimSequence planned := by
  constructor
  · rintro ⟨source, entry, signature, hd, hread, haccepts⟩
    obtain ⟨e, he, hstands⟩ := h.planned_at hd
    obtain ⟨hi, rfl⟩ := List.getElem?_eq_some_iff.1 he
    have hsame : planned[position].signature = signature :=
      Except.ok.inj (hstands.read.symm.trans hread)
    refine ⟨⟨position, hi⟩, rfl, mem_claimSequence.2 ?_⟩
    rw [List.get_eq_getElem, hstands.claimedKeys_eq, hsame]
    exact (Signature.mem_expand_iff (Signature.optionalLast_of_read hread)).2 haccepts
  · rintro ⟨i, rfl, hi⟩
    obtain ⟨source, entry, hd, hstands⟩ := h.declared (List.getElem?_eq_getElem i.2)
    rw [mem_claimSequence, List.get_eq_getElem, hstands.claimedKeys_eq] at hi
    have hlast := Signature.optionalLast_of_read hstands.read
    exact ⟨source, entry, _, hd, hstands.read, (Signature.mem_expand_iff hlast).1 hi⟩

theorem expansions_eq (h : d.PlannedAs planned) :
    d.expansions = (claimSequence planned).map Prod.fst := by
  rw [keys_claimSequence, expansions]
  unfold PlannedAs at h
  generalize d.toList = declared at h
  induction h with
  | nil => rfl
  | cons hstands _ ih => simp only [List.flatMap_cons, ih, hstands.read, hstands.claimedKeys_eq]

theorem positionOf?_eq_none (h : d.PlannedAs planned) {text : String} :
    positionOf? planned text = none ↔ d.find? text = none := by
  rw [positionOf?_eq_none_iff]
  constructor
  · intro hnone
    by_contra hsome
    obtain ⟨entry, hentry⟩ := Option.ne_none_iff_exists'.1 hsome
    obtain ⟨i, hstands⟩ := h.exists_of_find? hentry
    exact hnone i hstands.source_eq
  · rintro hnone i rfl
    obtain ⟨entry, hentry, _⟩ := h.find?_source (List.get_mem planned i)
    rw [hnone] at hentry
    cases hentry

section
variable {classifier : Classifier β} {claims : Claims planned} {t : DispatchTable β}

theorem names_of_findTarget? (h : d.PlannedAs planned) (ht : t.BuiltFrom classifier claims)
    {text : String} {i : Position planned} (hi : findTarget? claims.owners text = some i) :
    d.Names t text (planned.get i).source := by
  unfold findTarget? at hi
  split at hi
  · next position hposition =>
    cases hi
    obtain ⟨entry, hentry, _⟩ := h.find?_source (List.get_mem planned i)
    rw [source_of_positionOf? hposition] at hentry ⊢
    exact .declared hentry
  · next hnone =>
    obtain ⟨key, hkey, howner⟩ := Option.bind_eq_some_iff.1 hi
    obtain ⟨_, _, hslot⟩ := ht.slot_eq howner
    obtain ⟨signature, hread, hexpand⟩ := spelledKey?_eq_some_iff.1 hkey
    exact .spelled (h.positionOf?_eq_none.1 hnone) hread hexpand hslot

theorem leadsTo_of_follows (h : d.PlannedAs planned) (ht : t.BuiltFrom classifier claims)
    {i terminal : Position planned} (hi : Follows (findTarget? claims.owners) i terminal) :
    d.LeadsTo t (planned.get i).source (planned.get terminal).source := by
  induction hi with
  | @here i method hmethod =>
    obtain ⟨entry, hentry, hstands⟩ := h.find?_source (List.get_mem planned i)
    exact .here hentry (hstands.target_eq ▸ hmethod)
  | @hop i next terminal text halias hnext _ ih =>
    obtain ⟨entry, hentry, hstands⟩ := h.find?_source (List.get_mem planned i)
    exact .hop hentry (hstands.target_eq ▸ halias) (h.names_of_findTarget? ht hnext) ih

end

end Description.PlannedAs

/-- ROUTING: a compiled table holds the token lists that some entry accepts; a key belongs to the entry
that the policy keeps among those, and leads to the implementation at the end of that entry's
aliases; keys stand in the order of their first claims. -/
theorem compile_routes {engine : Engine β} {d : Description β} {r : Resolver β}
    (hs : engine.stages = Stage.standard) (h : engine.compile d = .ok r) :
    (∀ tokens, r.table.contains ⟨tokens⟩ = true ↔ ∃ position, d.AcceptsAt position tokens) ∧
    (∀ tokens slot, r.table.slot? ⟨tokens⟩ = some slot →
      (∃ position entry, d.toList[position]? = some (slot.declaredBy, entry) ∧
        d.AcceptsAt position tokens ∧ ∀ other, d.AcceptsAt other tokens →
          engine.config.collisionPolicy.Keeps position other) ∧
      ∃ e, r.table.lookup ⟨tokens⟩ = some e ∧ d.LeadsTo r.table slot.declaredBy e.source ∧
        d.Provides e) ∧
    r.table.keys.keys = d.expansions.eraseDups := by
  obtain ⟨planned, hplan, claims, hclaims, ht⟩ := Engine.compile_eq_ok h
  have hd := Engine.plan_standard hs hplan
  have hsettled := Claims.settled_all hclaims
  refine ⟨?_, ?_, ?_⟩
  · intro tokens
    rw [DispatchTable.contains, OrderedMap.contains_iff, ht.keys_eq, hsettled.mem_keys_iff]
    simp only [hd.acceptsAt_iff, List.mem_map]
    constructor
    · rintro ⟨⟨key, i⟩, hi, rfl⟩
      exact ⟨i, i, rfl, hi⟩
    · rintro ⟨_, i, _, hi⟩
      exact ⟨_, hi, rfl⟩
  · intro tokens slot hslot
    obtain ⟨owner, terminal, method, howner, hsource, hfollows, _, hlookup⟩ :=
      ht.exists_owner hslot
    refine ⟨?_, _, hlookup, ?_, hd.provides ht (r.table.lookup_mem hlookup)⟩
    · obtain ⟨source, entry, hentry, hstands⟩ := hd.declared (List.getElem?_eq_getElem owner.2)
      refine ⟨owner, entry, ?_, hd.acceptsAt_iff.2 ⟨owner, rfl, hsettled.owner_mem howner⟩, ?_⟩
      · rw [hentry, hsource, List.get_eq_getElem, hstands.source_eq]
      · intro other hother
        obtain ⟨i, rfl, hi⟩ := hd.acceptsAt_iff.1 hother
        exact hsettled.owner_kept howner hi
    · rw [hsource]
      exact hd.leadsTo_of_follows ht hfollows
  · rw [ht.keys_eq, hsettled.keys_eq, hd.expansions_eq]

/-- Two signatures that overlap at `[object, array]`, and an alias of the second. -/
def overlapping : Description Unit :=
  ((Description.empty.insert "[object, string|array]" (.method ⟨"first", 0, [], ()⟩)).insert
    "[object, array] [number]?" (.method ⟨"second", 1, [], ()⟩)).insert
    "[date]" (.aliasOf "[object, array]")

theorem compile_routes_overlapping : ∃ r, Engine.standard.compile overlapping = .ok r ∧
    r.table.slot? ⟨["date"]⟩ = some ⟨1, "[date]"⟩ ∧
    (∃ e, r.table.lookup ⟨["date"]⟩ = some e ∧ overlapping.LeadsTo r.table "[date]" e.source ∧
      overlapping.Provides e) ∧
    r.table.keys.keys = overlapping.expansions.eraseDups := by
  obtain ⟨r, hr, hslot⟩ : ∃ r, Engine.standard.compile overlapping = .ok r ∧
      r.table.slot? ⟨["date"]⟩ = some ⟨1, "[date]"⟩ :=
    exists_ok_of_toOption (by decide +kernel)
  have hroutes := compile_routes rfl hr
  exact ⟨r, hr, hslot, (hroutes.2.1 _ _ hslot).2, hroutes.2.2⟩

end ShapeDispatch
