import ShapeDispatch.Proofs.Building

/-!
Calls that leave trailing arguments out. A call whose own key is not in the table is handled exactly
if the defaults of some entry fill it up to a key that leads back to that entry; the entry declared
first is selected, and the call does what the filled-up call would do (`select_of_miss`). A call whose
own key is in the table is filled up too, but its selection keeps the shorter key
(`select_key_iff`).
-/

namespace ShapeDispatch
variable {β : Type}

theorem Classifier.typeKey_append (c : Classifier β) (args more : List (Value β)) :
    c.typeKey (args ++ more) = (c.typeKey args).extended (more.map c.classify) := by
  simp [typeKey, Key.extended]

namespace Resolver

/-- The defaults of an entry fill up a call: there are some left, and the types of all values together
make a key that leads to the entry itself. -/
def FilledUpBy (r : Resolver β) (args : List (Value β)) (e : ResolvedEntry β) : Prop :=
  args.length < e.defaults.length ∧
    r.table.lookup (r.typeKey (args ++ e.defaults.drop args.length)) = some e

section
variable {planned : List (PlannedEntry β)} {claims : Claims planned} {r : Resolver β}
  {args : List (Value β)} {e : ResolvedEntry β} {s : Selection β}

/-- The tokens that were stored with the defaults are those that a call would give them. -/
theorem extended_defaultTokens (ht : r.table.BuiltFrom r.classifier claims)
    (he : e ∈ r.table.entries) (args : List (Value β)) :
    (r.typeKey args).extended (e.defaultTokens.drop args.length) =
      r.typeKey (args ++ e.defaults.drop args.length) := by
  obtain ⟨_, _, _, _, htokens⟩ := ht.mem_entries he
  rw [htokens, typeKey, typeKey, Classifier.typeKey_append, List.map_drop]
  rfl

theorem lookup_id_iff (ht : r.table.BuiltFrom r.classifier claims) (he : e ∈ r.table.entries)
    {key : Key} : (r.table.lookup key).map ResolvedEntry.id = some e.id ↔
      r.table.lookup key = some e := by
  constructor
  · intro h
    obtain ⟨e', hlookup, hid⟩ := Option.map_eq_some_iff.1 h
    have hsame := ht.entry?_id (r.table.lookup_mem hlookup)
    rw [hid, ht.entry?_id he] at hsame
    rw [hlookup, hsame]
  · intro h
    rw [h, Option.map_some]

theorem selectPadded?_eq_some_iff (ht : r.table.BuiltFrom r.classifier claims)
    (he : e ∈ r.table.entries) :
    r.table.selectPadded? (r.typeKey args) e = some s ↔ r.FilledUpBy args e ∧
      s = ⟨e, r.typeKey (args ++ e.defaults.drop args.length), e.defaults.drop args.length⟩ := by
  have hlength : e.defaultTokens.length = e.defaults.length := by
    obtain ⟨_, _, _, _, htokens⟩ := ht.mem_entries he
    rw [htokens]
    exact List.length_map _
  have hleft : (!(e.defaultTokens.drop args.length).isEmpty) = true ↔
      args.length < e.defaults.length := by
    rw [← hlength]
    simp
  have hcond : ((!(e.defaultTokens.drop (r.typeKey args).length).isEmpty) = true ∧
      (r.table.lookup ((r.typeKey args).extended
        (e.defaultTokens.drop (r.typeKey args).length))).map ResolvedEntry.id = some e.id) ↔
      r.FilledUpBy args e := by
    rw [typeKey_length, extended_defaultTokens ht he, hleft, lookup_id_iff ht he, FilledUpBy]
  rw [DispatchTable.selectPadded?]
  by_cases hfill : r.FilledUpBy args e
  · rw [if_pos (hcond.2 hfill), typeKey_length, extended_defaultTokens ht he,
      ResolvedEntry.paddingBehind, Option.some_inj]
    exact ⟨fun h => ⟨hfill, h.symm⟩, fun h => h.2.symm⟩
  · rw [if_neg (fun h => hfill (hcond.1 h))]
    exact ⟨fun h => (nomatch h), fun h => absurd h.1 hfill⟩

theorem mem_paddedEntries (ht : r.table.BuiltFrom r.classifier claims) (he : e ∈ r.table.entries)
    (hfill : r.FilledUpBy args e) : e ∈ r.table.paddedEntries := by
  rw [ht.paddedEntries_eq, List.mem_filter]
  refine ⟨he, ?_⟩
  have hpos : 0 < e.defaults.length := Nat.zero_lt_of_lt hfill.1
  simpa using List.ne_nil_of_length_pos hpos

theorem select_of_lookup_none (hmiss : r.table.lookup (r.typeKey args) = none) :
    r.select args =
      match r.table.paddedEntries.findSome? (r.table.selectPadded? (r.typeKey args)) with
      | some selection => .ok selection
      | none => .error (.miss (r.typeKey args)) := by
  unfold select
  dsimp only
  split
  · next e he =>
    rw [hmiss] at he
    cases he
  · rfl

/-- What is selected behind a miss is filled up, and of all such entries declared first. -/
theorem selected_of_miss (ht : r.table.BuiltFrom r.classifier claims)
    (hmiss : r.table.lookup (r.typeKey args) = none) (h : r.select args = .ok s) :
    s.entry ∈ r.table.entries ∧ r.FilledUpBy args s.entry ∧
      (∀ e ∈ r.table.entries, r.FilledUpBy args e → s.entry.id ≤ e.id) ∧
      s.padding = s.entry.defaults.drop args.length ∧
      s.key = r.typeKey (args ++ s.padding) := by
  rw [select_of_lookup_none hmiss] at h
  split at h
  · next s' hsome =>
    cases h
    obtain ⟨before, e, behind, hsplit, hsel, hbefore⟩ := List.findSome?_eq_some_iff.1 hsome
    have hmem : e ∈ r.table.entries := r.table.paddedEntries_mem (by simp [hsplit])
    obtain ⟨hfill, rfl⟩ := (selectPadded?_eq_some_iff ht hmem).1 hsel
    refine ⟨hmem, hfill, ?_, rfl, rfl⟩
    intro other hother hfill'
    have hin := mem_paddedEntries ht hother hfill'
    rw [hsplit, List.mem_append, List.mem_cons] at hin
    rcases hin with hin | rfl | hin
    · have hnone := hbefore other hin
      rw [(selectPadded?_eq_some_iff ht hother).2 ⟨hfill', rfl⟩] at hnone
      cases hnone
    · exact Nat.le_refl _
    · have hsorted := ht.pairwise_id.filter (fun e => !e.defaults.isEmpty)
      rw [← ht.paddedEntries_eq, hsplit, List.pairwise_append] at hsorted
      exact Nat.le_of_lt ((List.pairwise_cons.1 hsorted.2.1).1 other hin)
  · cases h

/-- A key has one token for each value, so that more values make it longer. -/
theorem length_typeKey_eq_add_iff {more : List (Value β)} :
    (r.typeKey args).length = args.length + more.length ↔ more = [] := by
  rw [typeKey_length, ← List.length_eq_zero_iff]
  omega

theorem typeKey_eq_append_iff {more : List (Value β)} :
    r.typeKey args = r.typeKey (args ++ more) ↔ more = [] := by
  constructor
  · intro hkeys
    have hlengths := congrArg Key.length hkeys
    rw [typeKey_length r (args ++ more), List.length_append] at hlengths
    exact length_typeKey_eq_add_iff.1 hlengths
  · rintro rfl
    rw [List.append_nil]

/-- A call whose own key leads to an entry is handled by it. -/
theorem select_of_lookup (h : r.table.lookup (r.typeKey args) = some e) :
    r.select args = .ok ⟨e, r.typeKey args, e.defaults.drop args.length⟩ := by
  rw [select]
  rw [h]
  rfl

end

/-- Two entries whose defaults fill up a call with one string. -/
def twoPadded : Description Unit :=
  .ofOverloads [
    ⟨"[string, array]", [.string "", .array []], ⟨"first", 0, [], ()⟩⟩,
    ⟨"[string, object]", [.string "", .object []], ⟨"second", 1, [], ()⟩⟩]

theorem twoPadded_selects : ∃ r s, Engine.standard.compile twoPadded = .ok r ∧
    r.table.contains (r.typeKey [.string "a"]) = false ∧ r.select [.string "a"] = .ok s ∧
    s.entry.id = 0 := by
  obtain ⟨r, hr, h⟩ : ∃ r, Engine.standard.compile twoPadded = .ok r ∧
      (r.table.contains (r.typeKey [.string "a"]),
        (r.select [.string "a"]).toOption.map (fun s => s.entry.id)) = (false, some 0) :=
    exists_ok_of_toOption (by decide +kernel)
  obtain ⟨hmiss, hsel⟩ := Prod.ext_iff.1 h
  obtain ⟨s, hs, hid⟩ := exists_ok_of_toOption hsel
  exact ⟨r, s, hr, hmiss, hs, hid⟩

/-- SELECTED KEY: the key of a selection leads to the selected entry. It is the key of the filled-up call
exactly if the call's own key is not in the table or nothing was filled up; otherwise it is the call's
own key, and shorter. -/
theorem select_key_iff {engine : Engine β} {d : Description β} {r : Resolver β}
    {args : List (Value β)} {s : Selection β} (h : engine.compile d = .ok r)
    (hs : r.select args = .ok s) :
    r.table.lookup s.key = some s.entry ∧
    (s.key = r.typeKey (args ++ s.padding) ↔
      r.table.contains (r.typeKey args) = false ∨ s.padding = []) ∧
    (s.key.length = args.length + s.padding.length ↔
      r.table.contains (r.typeKey args) = false ∨ s.padding = []) ∧
    (r.table.contains (r.typeKey args) = true → s.key = r.typeKey args) := by
  obtain ⟨planned, _, claims, _, ht⟩ := Engine.compile_eq_ok h
  cases hlookup : r.table.lookup (r.typeKey args) with
  | none =>
    have hmiss := ht.lookup_eq_none_iff.1 hlookup
    obtain ⟨_, hfill, _, hpadding, hkey⟩ := selected_of_miss ht hlookup hs
    have hlength : s.key.length = args.length + s.padding.length := by
      rw [hkey, typeKey_length, List.length_append]
    refine ⟨?_, ?_, ?_, ?_⟩
    · rw [hkey, hpadding]
      exact hfill.2
    · exact ⟨fun _ => Or.inl hmiss, fun _ => hkey⟩
    · exact ⟨fun _ => Or.inl hmiss, fun _ => hlength⟩
    · intro hhit
      rw [hmiss] at hhit
      cases hhit
  | some e =>
    have hhit : r.table.contains (r.typeKey args) = true := by
      rw [← Bool.not_eq_false, ← ht.lookup_eq_none_iff, hlookup]
      exact Option.some_ne_none e
    have hnotmiss : (r.table.contains (r.typeKey args) = false ∨ s.padding = []) ↔
        s.padding = [] := by
      rw [hhit]
      simp
    obtain rfl := Except.ok.inj ((select_of_lookup hlookup).symm.trans hs)
    refine ⟨hlookup, ?_, ?_, fun _ => rfl⟩
    · rw [hnotmiss]
      exact typeKey_eq_append_iff
    · rw [hnotmiss]
      exact length_typeKey_eq_add_iff

theorem select_key_iff_twoPadded : ∃ r s, Engine.standard.compile twoPadded = .ok r ∧
    r.select [.string "a"] = .ok s ∧ r.table.lookup s.key = some s.entry ∧
    s.key = r.typeKey ([.string "a"] ++ s.padding) := by
  obtain ⟨r, s, hr, hmiss, hs, _⟩ := twoPadded_selects
  obtain ⟨hlookup, hkey, _⟩ := select_key_iff hr hs
  exact ⟨r, s, hr, hs, hlookup, hkey.2 (Or.inl hmiss)⟩

/-- An entry that accepts a call without its optional position and has a default for it. -/
def paddedOnHit : Description Unit :=
  .ofOverloads [⟨"[array:list] [object:options]?", [.null, .object []], ⟨"f", 0, [], ()⟩⟩]

/-- A call that its own key leads to an entry for is filled up under that shorter key. -/
theorem select_key_shorter : ∃ r s, Engine.standard.compile paddedOnHit = .ok r ∧
    r.select [.array []] = .ok s ∧ s.key = ⟨["array"]⟩ ∧
    r.typeKey ([.array []] ++ s.padding) = ⟨["array", "object"]⟩ := by
  obtain ⟨r, hr, h⟩ : ∃ r, Engine.standard.compile paddedOnHit = .ok r ∧
      (r.select [.array []]).toOption.map
        (fun s => (s.key, r.typeKey ([.array []] ++ s.padding))) =
          some (⟨["array"]⟩, ⟨["array", "object"]⟩) :=
    exists_ok_of_toOption (by decide +kernel)
  obtain ⟨s, hs, h⟩ := exists_ok_of_toOption h
  obtain ⟨hkey, hfull⟩ := Prod.ext_iff.1 h
  exact ⟨r, s, hr, hs, hkey, hfull⟩

end Resolver

end ShapeDispatch
