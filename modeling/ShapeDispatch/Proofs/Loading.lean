import ShapeDispatch.DescriptionFile
import ShapeDispatch.Proofs.Routing

/-!
What becomes of the entries of a description file. A description keeps one entry for each signature
text, that of the last file entry with this text (`DescriptionFile.find?_description`). Where
collisions are rejected, that is all that can be lost: every key that the signature of a file entry
expands to leads to what the last file entry with its text says, and different texts have no key in
common (`DescriptionFile.compile_keeps_entries`).
-/

namespace ShapeDispatch

theorem Implementation.label_bind {β : Type} (implementation : Implementation β)
    (names : List String) : (implementation.bind names).label = implementation.label := by
  unfold bind
  split
  · rfl
  · rfl

namespace EntrySpec
variable {spec : EntrySpec} {position : Nat} {entry : Entry Body}

/-- The entry of a description says what the file says, under the text given there. -/
theorem toEntry_eq_ok (h : spec.toEntry position = .ok entry) :
    entry.signatureText spec.signature = spec.signature ∧
    entry.defaults = spec.defaults.map Value.ofJson ∧
    ((∃ label, spec.method = some label ∧ entry.target = .method (echo position label)) ∨
      ∃ text, spec.aliasOf = some text ∧ entry.target = .aliasOf text) := by
  unfold toEntry at h
  split at h
  · next label hmethod _ =>
    split at h
    · next hempty =>
      cases h
      rw [List.isEmpty_iff.1 hempty]
      exact ⟨rfl, rfl, .inl ⟨label, hmethod, rfl⟩⟩
    · cases h
      exact ⟨rfl, rfl, .inl ⟨label, hmethod, rfl⟩⟩
  · next text _ halias =>
    split at h
    · next hempty =>
      cases h
      rw [List.isEmpty_iff.1 hempty]
      exact ⟨rfl, rfl, .inr ⟨text, halias, rfl⟩⟩
    · cases h
  · cases h

/-- What a key leads to according to the file entry at a position: its own method, with the parameters
named and the defaults given there, or the implementation that its alias leads to. -/
inductive Reaches (spec : EntrySpec) (d : Description Body) (t : DispatchTable Body) (position : Nat)
    (signature : Signature) (e : ResolvedEntry Body) : Prop where
  | method {label : String} : spec.method = some label → e.source = spec.signature →
    e.implementation = (echo position label).bind signature.paramNames →
      e.defaults = spec.defaults.map Value.ofJson → Reaches spec d t position signature e
  | aliasOf {text next : String} : spec.aliasOf = some text → d.Names t text next →
    d.LeadsTo t next e.source → d.Provides e → Reaches spec d t position signature e

theorem reaches_of_leadsTo {d : Description Body} {t : DispatchTable Body} {signature : Signature}
    {e : ResolvedEntry Body} (h : spec.toEntry position = .ok entry)
    (hd : d.find? spec.signature = some entry)
    (hread : Signature.read spec.signature = .ok signature)
    (hleads : d.LeadsTo t spec.signature e.source) (hprovides : d.Provides e) :
    spec.Reaches d t position signature e := by
  obtain ⟨htext, hdefaults, htarget⟩ := toEntry_eq_ok h
  generalize hsource : e.source = source at hleads
  cases hleads with
  | here hentry hmethod =>
    rw [hd] at hentry
    cases hentry
    obtain ⟨label, hlabel, hecho⟩ | ⟨text, _, halias⟩ := htarget
    · obtain ⟨_, method, signature', hentry, hmethod, hread', himplementation, hdefaults'⟩ :=
        hprovides
      rw [hsource, hd] at hentry
      cases hentry
      rw [hsource, htext, hread] at hread'
      cases hread'
      rw [hecho] at hmethod
      cases hmethod
      exact .method hlabel hsource himplementation (hdefaults'.trans hdefaults)
    · rw [halias] at hmethod
      cases hmethod
  | hop hentry halias hnames hleads =>
    rw [hd] at hentry
    cases hentry
    obtain ⟨label, _, hecho⟩ | ⟨text, htext, halias'⟩ := htarget
    · rw [hecho] at halias
      cases halias
    · rw [halias'] at halias
      cases halias
      exact .aliasOf htext hnames (hsource ▸ hleads) hprovides

end EntrySpec

/-- Where collisions are rejected, every declared entry keeps all its keys. -/
theorem Engine.keeps_of_reject {β : Type} {engine : Engine β} {d : Description β} {r : Resolver β}
    (hs : engine.stages = Stage.standard) (hreject : engine.config.collisionPolicy = .reject)
    (h : engine.compile d = .ok r) {source : String} {entry : Entry β}
    (hentry : d.find? source = some entry) :
    ∃ signature, Signature.read (entry.signatureText source) = .ok signature ∧
      ∀ key ∈ signature.expand, ∃ slot e, r.table.slot? key = some slot ∧
        slot.declaredBy = source ∧ r.table.lookup key = some e ∧
        d.LeadsTo r.table source e.source ∧ d.Provides e := by
  obtain ⟨planned, hplan, claims, hclaims, ht⟩ := Engine.compile_eq_ok h
  have hd := Engine.plan_standard hs hplan
  obtain ⟨i, hstands⟩ := hd.exists_of_find? hentry
  rw [hreject] at hclaims
  refine ⟨_, hstands.read, fun key hkey => ?_⟩
  have hclaim : (key, i) ∈ claimSequence planned := by
    rw [mem_claimSequence, hstands.claimedKeys_eq]
    exact hkey
  have howner := (Claims.settled_all hclaims).find?_of_mem hclaim
  obtain ⟨terminal, hfollows, hslot⟩ := ht.slot_eq howner
  obtain ⟨id, method, _, hlookup⟩ := ht.lookup_of_follows howner hfollows
  have hleads := hd.leadsTo_of_follows ht hfollows
  rw [hstands.source_eq] at hslot hleads
  exact ⟨_, _, hslot, rfl, hlookup, hleads, hd.provides ht (r.table.lookup_mem hlookup)⟩

namespace DescriptionFile
variable {file : DescriptionFile} {d : Description Body} {spec : EntrySpec}

/-- The entry of a file at a position has a signature text that no entry behind it has. -/
structure LastOf (file : DescriptionFile) (text : String) (position : Nat) (spec : EntrySpec) :
    Prop where
  entry : file.entries[position]? = some spec
  signature_eq : spec.signature = text
  behind : ∀ {later other}, position < later → file.entries[later]? = some other →
    other.signature ≠ text

/-- From every entry of a file on there is a last one with its text. -/
theorem exists_lastOf {spec : EntrySpec} {position : Nat}
    (h : file.entries[position]? = some spec) :
    ∃ last winner, position ≤ last ∧ file.LastOf spec.signature last winner := by
  by_cases hrepeated : ∃ later other, position < later ∧ file.entries[later]? = some other ∧
      other.signature = spec.signature
  · obtain ⟨later, other, hlater, hother, hsame⟩ := hrepeated
    have hbound := (List.getElem?_eq_some_iff.1 hother).1
    obtain ⟨last, winner, hle, hlast⟩ := exists_lastOf hother
    exact ⟨last, winner, Nat.le_trans (Nat.le_of_lt hlater) hle, hsame ▸ hlast⟩
  · refine ⟨position, spec, Nat.le_refl _, h, rfl, fun {later other} hlater hother hsame => ?_⟩
    exact hrepeated ⟨later, other, hlater, hother, hsame⟩
termination_by file.entries.length - position

/-- Declaring other texts changes nothing for a text. -/
theorem find?_foldlM_declare {d' : Description Body} {text : String}
    {numbered : List (EntrySpec × Nat)} (hother : ∀ p ∈ numbered, p.1.signature ≠ text)
    (h : numbered.foldlM declare d = .ok d') : d'.find? text = d.find? text := by
  refine foldlM_ok_inv (fun _ s => s.find? text = d.find? text) [] rfl ?_ h
  intro seen p rest s s' hsplit hs hstep
  obtain ⟨entry, _, rfl⟩ := map_eq_ok.1 hstep
  have hp : p ∈ numbered := by
    rw [show numbered = seen ++ p :: rest from hsplit]
    exact List.mem_append_right _ (List.mem_cons_self ..)
  rw [Description.find?, Description.insert, OrderedMap.find?_insert, if_neg (hother p hp)]
  exact hs

/-- A description holds what the last entry with a text says. -/
theorem find?_description (h : file.description = .ok d) {text : String} {position : Nat}
    (hlast : file.LastOf text position spec) :
    ∃ entry, spec.toEntry position = .ok entry ∧ d.find? text = some entry := by
  obtain ⟨hlt, hspec⟩ := List.getElem?_eq_some_iff.1 hlast.entry
  have hsplit : file.entries.zipIdx = (file.entries.take position).zipIdx ++
      (spec, position) :: (file.entries.drop (position + 1)).zipIdx (position + 1) := by
    have hlength : 0 + (file.entries.take position).length = position := by
      rw [Nat.zero_add, List.length_take_of_le (Nat.le_of_lt hlt)]
    conv_lhs => rw [← List.take_append_drop position file.entries]
    rw [List.zipIdx_append, List.drop_eq_getElem_cons hlt, List.zipIdx_cons, hspec, hlength]
  -- whatever was declared before is overwritten here, and the entries behind have other texts
  rw [description, hsplit, List.foldlM_append] at h
  obtain ⟨before, _, h⟩ := bind_eq_ok.1 h
  rw [List.foldlM_cons] at h
  obtain ⟨declared, hdeclared, h⟩ := bind_eq_ok.1 h
  obtain ⟨entry, hentry, rfl⟩ := map_eq_ok.1 hdeclared
  refine ⟨entry, hentry, ?_⟩
  rw [find?_foldlM_declare ?_ h, Description.find?, Description.insert, OrderedMap.find?_insert,
    if_pos hlast.signature_eq]
  intro p hp
  obtain ⟨later, hlater⟩ := List.mem_iff_getElem?.1 (List.fst_mem_of_mem_zipIdx hp)
  rw [List.getElem?_drop] at hlater
  exact hlast.behind (by omega) hlater

section
variable {engine : Engine Body} {r : Resolver Body} (hs : engine.stages = Stage.standard)
  (hconfig : engine.config = file.config) (hreject : file.config.collisionPolicy = .reject)
  (hd : file.description = .ok d) (h : engine.compile d = .ok r)
include hs hconfig hreject hd h

/-- The keys of an entry lead to what the last entry with its text says. -/
theorem exists_reaches {position : Nat} (hspec : file.entries[position]? = some spec) :
    ∃ last winner signature, position ≤ last ∧ file.LastOf spec.signature last winner ∧
      Signature.read spec.signature = .ok signature ∧
      ∀ key ∈ signature.expand, ∃ slot e, r.table.slot? key = some slot ∧
        slot.declaredBy = spec.signature ∧ r.table.lookup key = some e ∧
        winner.Reaches d r.table last signature e := by
  obtain ⟨last, winner, hle, hlast⟩ := exists_lastOf hspec
  obtain ⟨entry, hentry, hfind⟩ := find?_description hd hlast
  obtain ⟨signature, hread, hkeys⟩ := Engine.keeps_of_reject hs (hconfig ▸ hreject) h hfind
  rw [← hlast.signature_eq, (EntrySpec.toEntry_eq_ok hentry).1] at hread
  refine ⟨last, winner, signature, hle, hlast, hlast.signature_eq ▸ hread, fun key hkey => ?_⟩
  obtain ⟨slot, e, hslot, hsource, hlookup, hleads, hprovides⟩ := hkeys key hkey
  rw [← hlast.signature_eq] at hfind hleads
  exact ⟨slot, e, hslot, hsource, hlookup,
    EntrySpec.reaches_of_leadsTo hentry hfind hread hleads hprovides⟩

theorem map_declaredBy_eq (hspec : spec ∈ file.entries) {signature : Signature} {key : Key}
    (hread : Signature.read spec.signature = .ok signature) (hkey : key ∈ signature.expand) :
    (r.table.slot? key).map KeySlot.declaredBy = some spec.signature := by
  obtain ⟨position, hposition⟩ := List.mem_iff_getElem?.1 hspec
  obtain ⟨_, _, signature', _, _, hread', hkeys⟩ :=
    exists_reaches hs hconfig hreject hd h hposition
  rw [hread] at hread'
  cases hread'
  obtain ⟨slot, _, hslot, hsource, _⟩ := hkeys key hkey
  rw [hslot, Option.map_some, hsource]

end

/-- LOADING: where collisions are rejected, every key that the signature of a file entry expands to is in
the table, declared by that text, and leads to what the last entry with this text says; entries with
different texts have no key in common. -/
theorem compile_keeps_entries {engine : Engine Body} {r : Resolver Body}
    (hs : engine.stages = Stage.standard) (hconfig : engine.config = file.config)
    (hreject : file.config.collisionPolicy = .reject) (hd : file.description = .ok d)
    (h : engine.compile d = .ok r) :
    (∀ position spec, file.entries[position]? = some spec →
      ∃ last winner signature, position ≤ last ∧ file.LastOf spec.signature last winner ∧
        Signature.read spec.signature = .ok signature ∧
        ∀ key ∈ signature.expand, ∃ slot e, r.table.slot? key = some slot ∧
          slot.declaredBy = spec.signature ∧ r.table.lookup key = some e ∧
          winner.Reaches d r.table last signature e) ∧
    ∀ spec ∈ file.entries, ∀ other ∈ file.entries, ∀ signature signature' key,
      Signature.read spec.signature = .ok signature →
      Signature.read other.signature = .ok signature' →
      key ∈ signature.expand → key ∈ signature'.expand → spec.signature = other.signature := by
  refine ⟨fun position spec hspec => exists_reaches hs hconfig hreject hd h hspec, ?_⟩
  intro spec hspec other hother signature signature' key hread hread' hkey hkey'
  have hsame := map_declaredBy_eq hs hconfig hreject hd h hspec hread hkey
  rw [map_declaredBy_eq hs hconfig hreject hd h hother hread' hkey'] at hsame
  exact (Option.some.inj hsame).symm

/-- What is seen of a file that is loaded and compiled with its own settings. -/
def compiled? {α : Type} (text : String)
    (view : DescriptionFile → Resolver Body → α) : Option α :=
  (read? text).bind (fun file => file.description.toOption.bind (fun d =>
    (file.engine.compile d).toOption.map (view file)))

theorem exists_of_compiled? {α : Type} {text : String}
    {view : DescriptionFile → Resolver Body → α} {seen : α} (h : compiled? text view = some seen) :
    ∃ file d r, read? text = some file ∧ file.description = .ok d ∧
      file.engine.compile d = .ok r ∧ view file r = seen := by
  obtain ⟨file, hread, h⟩ := Option.bind_eq_some_iff.1 h
  obtain ⟨d, hd, h⟩ := Option.bind_eq_some_iff.1 h
  obtain ⟨r, hr, h⟩ := exists_ok_of_toOption h
  exact ⟨file, d, r, hread, toOption_eq_some.1 hd, hr, h⟩

/-- A file with two entries of one text. -/
def repeated : String :=
  "[engine]\ncollision_policy = \"reject\"\n\n" ++
  "[[entry]]\nsignature = \"[array]\"\nmethod = \"first\"\n\n" ++
  "[[entry]]\nsignature = \"[array]\"\nmethod = \"second\"\n"

theorem repeated_compiles : ∃ file d r first second e, read? repeated = some file ∧
    file.config.collisionPolicy = .reject ∧ file.description = .ok d ∧
    file.engine.compile d = .ok r ∧ file.entries = [first, second] ∧
    first.signature = "[array]" ∧ second.signature = "[array]" ∧ first.method = some "first" ∧
    first.aliasOf = none ∧ r.table.lookup ⟨["array"]⟩ = some e ∧
    e.implementation.label = "second" := by
  obtain ⟨file, d, r, hread, hd, hr, hseen⟩ : ∃ file d r, read? repeated = some file ∧
      file.description = .ok d ∧ file.engine.compile d = .ok r ∧
      (file.config.collisionPolicy, file.entries.map EntrySpec.signature,
        file.entries.map EntrySpec.method, file.entries.map EntrySpec.aliasOf,
        (r.table.lookup ⟨["array"]⟩).map (fun e => e.implementation.label)) =
        (.reject, ["[array]", "[array]"], [some "first", some "second"], [none, none],
          some "second") :=
    exists_of_compiled? (by decide +kernel)
  simp only [Prod.mk.injEq] at hseen
  obtain ⟨hreject, htexts, hmethods, haliases, hlabel⟩ := hseen
  obtain ⟨first, rest, hentries, hfirst, hrest⟩ := List.map_eq_cons_iff.1 htexts
  obtain ⟨second, rest, rfl, hsecond, hnone⟩ := List.map_eq_cons_iff.1 hrest
  obtain rfl := List.map_eq_nil_iff.1 hnone
  obtain ⟨e, he, hlabel⟩ := Option.map_eq_some_iff.1 hlabel
  simp only [hentries, List.map_cons, List.cons.injEq] at hmethods haliases
  exact ⟨file, d, r, first, second, e, hread, hreject, hd, hr, hentries, hfirst, hsecond,
    hmethods.1, haliases.1, he, hlabel⟩

theorem read_array : ∃ signature, Signature.read "[array]" = .ok signature ∧
    signature.expand = [⟨["array"]⟩] := exists_ok_of_toOption (by decide +kernel)

theorem compile_keeps_entries_repeated : ∃ file d r first last winner signature slot e,
    read? repeated = some file ∧ file.config.collisionPolicy = .reject ∧
    file.description = .ok d ∧ file.engine.compile d = .ok r ∧
    file.entries[0]? = some first ∧ first.method = some "first" ∧
    file.LastOf first.signature last winner ∧ r.table.slot? ⟨["array"]⟩ = some slot ∧
    slot.declaredBy = first.signature ∧ r.table.lookup ⟨["array"]⟩ = some e ∧
    winner.Reaches d r.table last signature e ∧ e.implementation.label = "second" := by
  obtain ⟨file, d, r, first, second, e, hread, hreject, hd, hr, hentries, htext, _, hmethod, _, he,
    hlabel⟩ := repeated_compiles
  obtain ⟨signature, hsignature, hexpand⟩ := read_array
  have hfirst : file.entries[0]? = some first := by rw [hentries, List.getElem?_cons_zero]
  obtain ⟨last, winner, signature', _, hlast, hread', hkeys⟩ :=
    (compile_keeps_entries rfl rfl hreject hd hr).1 0 first hfirst
  rw [htext, hsignature] at hread'
  cases hread'
  obtain ⟨slot, e', hslot, hsource, hlookup, hreaches⟩ := hkeys ⟨["array"]⟩ (by simp [hexpand])
  rw [he] at hlookup
  cases hlookup
  exact ⟨file, d, r, first, last, winner, signature, slot, e, hread, hreject, hd, hr, hfirst,
    hmethod, hlast, hslot, hsource, he, hreaches, hlabel⟩

/-- Two entries of an accepted file claim one key, and it leads to the second one only. -/
theorem compile_drops_entry : ∃ file d r first second signature e, read? repeated = some file ∧
    file.config.collisionPolicy = .reject ∧ file.description = .ok d ∧
    file.engine.compile d = .ok r ∧ file.entries = [first, second] ∧
    Signature.read first.signature = .ok signature ∧
    Signature.read second.signature = .ok signature ∧ ⟨["array"]⟩ ∈ signature.expand ∧
    r.table.lookup ⟨["array"]⟩ = some e ∧ ¬first.Reaches d r.table 0 signature e := by
  obtain ⟨file, d, r, first, second, e, hread, hreject, hd, hr, hentries, hfirst, hsecond, hmethod,
    halias, he, hlabel⟩ := repeated_compiles
  obtain ⟨signature, hsignature, hexpand⟩ := read_array
  refine ⟨file, d, r, first, second, signature, e, hread, hreject, hd, hr, hentries,
    hfirst ▸ hsignature, hsecond ▸ hsignature, by simp [hexpand], he, ?_⟩
  intro hreaches
  cases hreaches with
  | method hmethod' _ himplementation _ =>
    rw [hmethod] at hmethod'
    cases hmethod'
    rw [himplementation, Implementation.label_bind] at hlabel
    exact absurd hlabel (by decide)
  | aliasOf halias' _ _ _ =>
    rw [halias] at halias'
    cases halias'

end DescriptionFile

end ShapeDispatch
