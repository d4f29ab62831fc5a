import Mathlib.Data.List.Flatten
import ShapeDispatch.Proofs.Collisions
import ShapeDispatch.Proofs.Delivery
import ShapeDispatch.Proofs.Orphans
import ShapeDispatch.Proofs.Padding
import ShapeDispatch.Proofs.Routing
import ShapeDispatch.Proofs.Stages

/-!
When the names of a signature are too few for a call. Inline names are one for each position, defaults
are no more than there are positions, and neither are the tokens of a key that the signature expands
to; so what an entry's own calls bring can always be bound (`Resolver.IsOwnCall.length_le`). What is
left are longer keys, which only an alias can declare, and projections (`select_binds`).
-/

namespace ShapeDispatch
variable {β : Type}

namespace Signature

theorem length_positionsWith_le {s : Signature} (h : s.OptionalLast) (count : Nat) :
    (s.positionsWith count).length ≤ s.length := by
  rw [length, ← positionsWith_all h, positionsWith, positionsWith, List.take_length]
  have hfewer := (List.take_sublist count s.optionalGroups).append_left s.mandatoryGroups
  exact (hfewer.flatMap Group.params).length_le

/-- A key of a signature has no more tokens than there are positions. -/
theorem length_le_of_mem_expand {s : Signature} (h : s.OptionalLast) {key : Key}
    (hkey : key ∈ s.expand) : key.length ≤ s.length := by
  obtain ⟨count, _, htokens⟩ := (mem_expand_iff h).1 hkey
  rw [Key.length, htokens.length_eq]
  exact length_positionsWith_le h count

/-- Inline names are one for each position if there are any. -/
theorem length_paramNames {text : String} {s : Signature} (h : read text = .ok s)
    (hinline : s.projection = none) (hnames : s.paramNames ≠ []) :
    s.paramNames.length = s.length := by
  have hparams : s.paramNames = s.params.filterMap Parameter.name := by
    rw [paramNames, hinline]
  rw [hparams] at hnames ⊢
  rcases (spelledBy_of_read h).2.uniform hinline with hnone | hall
  · exact absurd (List.filterMap_eq_nil_iff.2 hnone) hnames
  · refine List.filterMap_length_eq_length.2 fun p hp => ?_
    exact Option.isSome_iff_ne_none.2 (hall p hp)

end Signature

/-- Values are refused exactly if they are to be bound and there are fewer names. -/
theorem deliver_eq_error_iff {names : List String} {values : List (Value β)}
    {error : DispatchError} :
    deliver names values = .error error ↔
      error = .binding values.length names ∧ names ≠ [] ∧ names.length < values.length := by
  unfold deliver bindNames
  split
  · next hnone => simp [List.isEmpty_iff.1 hnone]
  · next hsome =>
    have hnames : names ≠ [] := fun hnil => hsome (List.isEmpty_iff.2 hnil)
    split
    · next hfew => simp [hnames, hfew, eq_comm]
    · next hmany => simp [hmany]

/-- Filling up a call keeps it within any bound that holds for the defaults. -/
theorem length_filled_le_iff {r : Resolver β} {args : List (Value β)} {s : Selection β} {n : Nat}
    (hs : r.select args = .ok s) (h : s.entry.defaults.length ≤ n) :
    (args ++ s.padding).length ≤ n ↔ args.length ≤ n := by
  rw [Resolver.select_padding hs, ResolvedEntry.paddingBehind, List.length_append,
    List.length_drop]
  omega

/-- A planned description has a position for each default of each entry. -/
theorem Engine.defaults_length_le {engine : Engine β} {d : Description β}
    {planned : List (PlannedEntry β)} (hplan : engine.plan d = .ok planned) {source : String}
    {entry : Entry β} {signature : Signature} (hentry : d.find? source = some entry)
    (hread : Signature.read (entry.signatureText source) = .ok signature) :
    entry.defaults.length ≤ signature.length := by
  obtain ⟨parsed, hparsed, _⟩ := bind_eq_ok.1 hplan
  obtain ⟨signature', hread', hdefaults⟩ :=
    Description.exists_plan_iff.1 ⟨parsed, hparsed⟩ _ (OrderedMap.find?_eq_some_iff.1 hentry)
  rw [hread] at hread'
  cases hread'
  exact hdefaults

/-- The declaring entry of a key has it among its keys, and is the one that handles the key or an
alias that leads there. -/
theorem Description.PlannedAs.declares {d : Description β} {planned : List (PlannedEntry β)}
    {classifier : Classifier β} {policy : CollisionPolicy} {claims : Claims planned}
    {t : DispatchTable β} {key : Key} {slot : KeySlot} (h : d.PlannedAs planned)
    (hclaims : Claims.all policy planned = .ok claims) (ht : t.BuiltFrom classifier claims)
    (hslot : t.slot? key = some slot) :
    ∃ entry e, d.find? slot.declaredBy = some entry ∧ key ∈ entry.keys slot.declaredBy ∧
      t.lookup key = some e ∧ d.LeadsTo t slot.declaredBy e.source ∧
      (slot.declaredBy ≠ e.source → ∃ text, entry = .aliasOf text) := by
  obtain ⟨owner, terminal, method, howner, hsource, hfollows, _, hlookup⟩ := ht.exists_owner hslot
  obtain ⟨entry, hentry, hstands⟩ := h.find?_source (List.get_mem planned owner)
  rw [hsource]
  refine ⟨entry, _, hentry, ?_, hlookup, h.leadsTo_of_follows ht hfollows, ?_⟩
  · have hkey := mem_claimSequence.1 ((Claims.settled_all hclaims).owner_mem howner)
    rw [hstands.claimedKeys_eq] at hkey
    simpa only [Entry.keys, hstands.read] using hkey
  · intro hne
    cases hfollows with
    | here _ => exact absurd rfl hne
    | hop halias _ _ => exact ⟨_, Entry.aliasOf_of_target (hstands.target_eq.symm.trans halias)⟩

/-- A call comes to the selected entry, which has this signature, on the entry's own account: under
a key that the entry declares, in the table or by its signature, or filled up with its defaults. -/
inductive Resolver.IsOwnCall (r : Resolver β) (signature : Signature) (args : List (Value β))
    (s : Selection β) : Prop where
  | declared {slot : KeySlot} : r.table.slot? (r.typeKey args) = some slot →
      slot.declaredBy = s.entry.source → IsOwnCall r signature args s
  | expanded : r.typeKey args ∈ signature.expand → IsOwnCall r signature args s
  | missed : r.table.contains (r.typeKey args) = false → IsOwnCall r signature args s
  | filledUp : s.padding ≠ [] → IsOwnCall r signature args s

section
variable {d : Description β} {planned : List (PlannedEntry β)} {policy : CollisionPolicy}
  {claims : Claims planned} {r : Resolver β} {args : List (Value β)} {s : Selection β}
  {entry : Entry β} {signature : Signature} (hd : d.PlannedAs planned)
  (hclaims : Claims.all policy planned = .ok claims)
  (ht : r.table.BuiltFrom r.classifier claims) (hs : r.select args = .ok s)
  (hentry : d.find? s.entry.source = some entry)
  (hread : Signature.read (entry.signatureText s.entry.source) = .ok signature)
  (hdefaults : s.entry.defaults.length ≤ signature.length)
include hd hclaims ht hs hentry hread hdefaults

/-- An entry's own calls supply no more values than its signature has positions. -/
theorem Resolver.IsOwnCall.length_le (hown : r.IsOwnCall signature args s) :
    args.length ≤ signature.length := by
  have hexpanded : r.typeKey args ∈ signature.expand → args.length ≤ signature.length := by
    intro hkey
    rw [← r.typeKey_length]
    exact Signature.length_le_of_mem_expand (Signature.optionalLast_of_read hread) hkey
  have hfewer : args.length < s.entry.defaults.length → args.length ≤ signature.length := by
    intro hlt
    exact Nat.le_trans (Nat.le_of_lt hlt) hdefaults
  cases hown with
  | declared hslot hsource =>
    obtain ⟨entry', _, hentry', hkey, _⟩ := hd.declares hclaims ht hslot
    rw [hsource, hentry] at hentry'
    cases hentry'
    rw [hsource, Entry.keys, hread] at hkey
    exact hexpanded hkey
  | expanded hkey => exact hexpanded hkey
  | missed hmiss =>
    obtain ⟨_, hfill, _⟩ := selected_of_miss ht (ht.lookup_eq_none_iff.2 hmiss) hs
    exact hfewer hfill.1
  | filledUp hpadding =>
    rw [select_padding hs, ResolvedEntry.paddingBehind, ne_eq, List.drop_eq_nil_iff] at hpadding
    exact hfewer (Nat.lt_of_not_le hpadding)

/-- A call with more values than its entry has positions comes under the key of an alias. -/
theorem exists_alias_of_longer (hlonger : signature.length < args.length) :
    ∃ slot text, r.table.slot? (r.typeKey args) = some slot ∧
      d.find? slot.declaredBy = some (.aliasOf text) ∧
      r.typeKey args ∈ (Entry.aliasOf text : Entry β).keys slot.declaredBy ∧
      d.LeadsTo r.table slot.declaredBy s.entry.source := by
  have hforeign : ¬r.IsOwnCall signature args s := by
    intro hown
    exact Nat.not_le_of_lt hlonger (hown.length_le hd hclaims ht hs hentry hread hdefaults)
  have hhit : r.table.contains (r.typeKey args) = true := by
    rw [← Bool.not_eq_false]
    exact fun hmiss => hforeign (.missed hmiss)
  obtain ⟨slot, hslot⟩ := Option.isSome_iff_exists.1 hhit
  obtain ⟨entry', e, hentry', hkey, hlookup, hleads, halias⟩ := hd.declares hclaims ht hslot
  obtain rfl := Except.ok.inj ((r.select_of_lookup hlookup).symm.trans hs)
  obtain ⟨text, rfl⟩ := halias (fun hsource => hforeign (.declared hslot hsource))
  exact ⟨slot, text, hslot, hentry', hkey, hleads⟩

/-- Names are too few if they are inline and an alias brings more values than there are positions,
or if they are those of a projection that lists fewer. -/
theorem paramNames_too_few_iff (hnames : signature.paramNames ≠ []) :
    signature.paramNames.length < (args ++ s.padding).length ↔
      (signature.projection = none ∧ signature.length < (r.typeKey args).length ∧
        ∃ slot text, r.table.slot? (r.typeKey args) = some slot ∧
          d.find? slot.declaredBy = some (.aliasOf text) ∧
          r.typeKey args ∈ (Entry.aliasOf text : Entry β).keys slot.declaredBy ∧
          d.LeadsTo r.table slot.declaredBy s.entry.source) ∨
      ∃ names, signature.projection = some names ∧ names.length < (args ++ s.padding).length := by
  rw [Resolver.typeKey_length]
  cases hprojection : signature.projection with
  | none =>
    have hlonger : signature.paramNames.length < (args ++ s.padding).length ↔
        signature.length < args.length := by
      rw [Signature.length_paramNames hread hprojection hnames, ← Nat.not_le,
        length_filled_le_iff hs hdefaults, Nat.not_le]
    rw [hlonger]
    constructor
    · intro hmore
      exact .inl ⟨rfl, hmore, exists_alias_of_longer hd hclaims ht hs hentry hread hdefaults hmore⟩
    · rintro (⟨_, hmore, _⟩ | ⟨_, hnone, _⟩)
      · exact hmore
      · cases hnone
  | some names =>
    have hprojected : signature.paramNames = names := by
      rw [Signature.paramNames, hprojection]
    simp [hprojected]

end

/-- BINDING: a selected call is handed over, filled up, under the names of its entry's signature. If
these are inline, the entry's own calls bring no more values than there are names, so that they can
always be bound. Binding fails exactly if there are names and either they are inline and the call
comes under a longer key that an alias of the entry declares, or they are those of a projection
and fewer than the values. -/
theorem select_binds {engine : Engine β} {d : Description β} {r : Resolver β}
    {args : List (Value β)} {s : Selection β} (hstages : engine.stages = Stage.standard)
    (h : engine.compile d = .ok r) (hs : r.select args = .ok s) :
    ∃ entry method signature, d.find? s.entry.source = some entry ∧
      entry.target = .method method ∧
      Signature.read (entry.signatureText s.entry.source) = .ok signature ∧
      (∀ run, r.call run args =
        (deliver signature.paramNames (args ++ s.padding)).bind
          (fun received => method.invoke run received)) ∧
      (signature.projection = none → r.IsOwnCall signature args s →
        (signature.paramNames ≠ [] →
          (args ++ s.padding).length ≤ signature.paramNames.length) ∧
        ∃ received, deliver signature.paramNames (args ++ s.padding) = .ok received) ∧
      ∀ error, deliver signature.paramNames (args ++ s.padding) = .error error ↔
        error = .binding (args ++ s.padding).length signature.paramNames ∧
        signature.paramNames ≠ [] ∧
        ((signature.projection = none ∧ signature.length < (r.typeKey args).length ∧
            ∃ slot text, r.table.slot? (r.typeKey args) = some slot ∧
              d.find? slot.declaredBy = some (.aliasOf text) ∧
              r.typeKey args ∈ (Entry.aliasOf text : Entry β).keys slot.declaredBy ∧
              d.LeadsTo r.table slot.declaredBy s.entry.source) ∨
          ∃ names, signature.projection = some names ∧
            names.length < (args ++ s.padding).length) := by
  obtain ⟨planned, hplan, claims, hclaims, ht⟩ := Engine.compile_eq_ok h
  have hd := Engine.plan_standard hstages hplan
  obtain ⟨entry, method, signature, hentry, htarget, hread, himplementation, hsame⟩ :=
    hd.provides ht (Resolver.select_mem hs)
  have hdefaults : s.entry.defaults.length ≤ signature.length := by
    rw [hsame]
    exact Engine.defaults_length_le hplan hentry hread
  refine ⟨entry, method, signature, hentry, htarget, hread, ?_, ?_, fun error => ?_⟩
  · intro run
    rw [Resolver.call, hs]
    dsimp only
    rw [himplementation, Implementation.call_bind]
  · intro hprojection hown
    have hlength : signature.paramNames ≠ [] →
        (args ++ s.padding).length ≤ signature.paramNames.length := by
      intro hnames
      rw [Signature.length_paramNames hread hprojection hnames, length_filled_le_iff hs hdefaults]
      exact hown.length_le hd hclaims ht hs hentry hread hdefaults
    refine ⟨hlength, ?_⟩
    cases hdeliver : deliver signature.paramNames (args ++ s.padding) with
    | ok received => exact ⟨received, rfl⟩
    | error error =>
      obtain ⟨_, hnames, hfew⟩ := deliver_eq_error_iff.1 hdeliver
      exact absurd (hlength hnames) (Nat.not_le_of_lt hfew)
  · rw [deliver_eq_error_iff]
    refine and_congr_right fun _ => and_congr_right fun hnames => ?_
    exact paramNames_too_few_iff hd hclaims ht hs hentry hread hdefaults hnames

/-- An entry with inline names, and an alias with a key that is longer than its signature. -/
def lengthened : Description Unit :=
  (Description.ofOverloads
    [⟨"[string:text] [object:options]?", [.string "", .object []], ⟨"f", 0, [], ()⟩⟩]).insert
      "[string, object, array]" (.aliasOf "[string]")

theorem select_binds_lengthened : ∃ r, Engine.standard.compile lengthened = .ok r ∧
    (∃ s received, r.select [] = .ok s ∧ s.padding.length = 2 ∧
      deliver ["text", "options"] s.padding = .ok received) ∧
    ∃ s, r.select [.string "a", .object [], .array []] = .ok s ∧
      deliver ["text", "options"] ([.string "a", .object [], .array []] ++ s.padding) =
        .error (.binding 3 ["text", "options"]) ∧
      ∃ slot text, r.table.slot? (r.typeKey [.string "a", .object [], .array []]) = some slot ∧
        lengthened.find? slot.declaredBy = some (.aliasOf text) ∧
        lengthened.LeadsTo r.table slot.declaredBy "[string:text] [object:options]?" := by
  obtain ⟨r, hr, h⟩ : ∃ r, Engine.standard.compile lengthened = .ok r ∧
      ((r.select []).toOption.map (fun s => (s.entry.source, s.padding.length)),
        (r.select [.string "a", .object [], .array []]).toOption.map
          (fun s => (s.entry.source, s.padding.length))) =
        (some ("[string:text] [object:options]?", 2),
          some ("[string:text] [object:options]?", 0)) :=
    exists_ok_of_toOption (by decide +kernel)
  obtain ⟨hown, hforeign⟩ := Prod.ext_iff.1 h
  obtain ⟨signature, hread, hsignature⟩ :
      ∃ signature, Signature.read "[string:text] [object:options]?" = .ok signature ∧
        (signature.projection, signature.paramNames) = (none, ["text", "options"]) :=
    exists_ok_of_toOption (by decide +kernel)
  obtain ⟨hprojection, hnames⟩ := Prod.ext_iff.1 hsignature
  dsimp only at hprojection hnames
  refine ⟨r, hr, ?_, ?_⟩
  · obtain ⟨s, hs, hselected⟩ := exists_ok_of_toOption hown
    obtain ⟨hsource, hpadding⟩ := Prod.ext_iff.1 hselected
    dsimp only at hsource hpadding
    obtain ⟨entry, _, signature', hentry, _, hread', _, hbinds, _⟩ := select_binds rfl hr hs
    rw [hsource] at hentry hread'
    cases hentry
    obtain rfl := Except.ok.inj (hread.symm.trans hread')
    have hfilled : s.padding ≠ [] := List.ne_nil_of_length_pos (by omega)
    obtain ⟨_, received, hreceived⟩ := hbinds hprojection (.filledUp hfilled)
    rw [hnames] at hreceived
    exact ⟨s, received, hs, hpadding, hreceived⟩
  · obtain ⟨s, hs, hselected⟩ := exists_ok_of_toOption hforeign
    obtain ⟨hsource, hpadding⟩ := Prod.ext_iff.1 hselected
    dsimp only at hsource hpadding
    obtain ⟨entry, _, signature', hentry, _, hread', _, _, hfails⟩ := select_binds rfl hr hs
    rw [hsource] at hentry hread' hfails
    cases hentry
    obtain rfl := Except.ok.inj (hread.symm.trans hread')
    rw [hnames] at hfails
    have herror : deliver ["text", "options"]
        ([.string "a", .object [], .array []] ++ s.padding) =
          .error (.binding 3 ["text", "options"]) := by
      rw [List.length_eq_zero_iff.1 hpadding]
      rfl
    obtain ⟨_, _, hwhy⟩ := (hfails _).1 herror
    rcases hwhy with ⟨_, _, slot, text, hslot, halias, _, hleads⟩ | ⟨_, hsome, _⟩
    · exact ⟨s, hs, herror, slot, text, hslot, halias, hleads⟩
    · rw [hprojection] at hsome
      cases hsome

end ShapeDispatch
