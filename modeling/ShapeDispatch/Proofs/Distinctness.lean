import ShapeDispatch.Proofs.Collisions
import ShapeDispatch.Proofs.Enumeration
import ShapeDispatch.Proofs.Rendering
import ShapeDispatch.Proofs.Routing

/-!
When expansion repeats a key. The keys of one shape are pairwise different, because no position lists a
token twice, and keys of shapes with different numbers of positions are different too. So a key is
repeated exactly if some optional group adds no position (`Signature.nodup_expand_iff`). A description
with one entry compiles all the same, since an entry may claim its own key again
(`compile_single`).
-/

namespace ShapeDispatch

namespace Shape

theorem nodup_choices : ∀ {shape : Shape}, (∀ type ∈ shape, type.choices.Nodup) →
    (choices shape).Nodup
  | [], _ => List.nodup_singleton _
  | position :: rest, h => by
    obtain ⟨hposition, hrest⟩ := List.forall_mem_cons.1 h
    rw [choices, List.nodup_flatMap]
    refine ⟨fun token _ => (nodup_choices hrest).map (List.cons_injective), hposition.imp ?_⟩
    intro token other hne tokens htokens hother
    obtain ⟨_, _, rfl⟩ := List.mem_map.1 htokens
    obtain ⟨_, _, hsame⟩ := List.mem_map.1 hother
    exact hne (List.cons.inj hsame).1.symm

theorem nodup_keys {shape : Shape} (h : ∀ type ∈ shape, type.choices.Nodup) :
    (keys shape).Nodup :=
  (nodup_choices h).map (fun _ _ hsame => congrArg Key.tokens hsame)

/-- A key has a token for each position of its shape. -/
theorem length_of_mem_keys {shape : Shape} {key : Key} (h : key ∈ keys shape) :
    key.length = shape.length :=
  (mem_keys.1 h).length_eq

theorem keyCount_pos : ∀ {shape : Shape}, (∀ type ∈ shape, type.choices ≠ []) → 0 < keyCount shape
  | [], _ => Nat.one_pos
  | position :: rest, h => by
    obtain ⟨hposition, hrest⟩ := List.forall_mem_cons.1 h
    exact Nat.mul_pos (List.length_pos_of_ne_nil hposition) (keyCount_pos hrest)

/-- A shape whose positions all list some token has a key. -/
theorem exists_mem_keys {shape : Shape} (h : ∀ type ∈ shape, type.choices ≠ []) :
    ∃ key, key ∈ keys shape := by
  refine List.exists_mem_of_length_pos ?_
  rw [length_keys]
  exact keyCount_pos h

end Shape

namespace Signature

theorem SpellsParameter.choices_ne_nil {lexemes : List Lexeme} {p : Parameter}
    (h : SpellsParameter lexemes p) : p.type.choices ≠ [] := by
  cases h <;> simp [TypeToken.choices]

/-- Every position of a signature that was read lists some token, and none twice. -/
theorem choices_of_read {text : String} {s : Signature} (h : read text = .ok s) :
    ∀ p ∈ s.params, p.type.choices ≠ [] ∧ p.type.choices.Nodup := by
  intro p hp
  obtain ⟨_, hspells, _⟩ := spellable_of_read h p hp
  exact ⟨hspells.choices_ne_nil, (spelledBy_of_read h).2.distinctChoices p hp⟩

/-- Where every optional group adds a position, a call that supplies more of them has more. -/
theorem length_positionsWith_lt {s : Signature} (h : ∀ g ∈ s.optionalGroups, g.params ≠ []) :
    ∀ {fewer more : Nat}, fewer < more → more ≤ s.optionalGroups.length →
      (s.positionsWith fewer).length < (s.positionsWith more).length
  | fewer, more + 1, hlt, hle => by
    have hstep : (s.positionsWith more).length < (s.positionsWith (more + 1)).length := by
      have hadded := List.length_pos_of_ne_nil (h _ (List.getElem_mem hle))
      rw [positionsWith_succ (List.getElem?_eq_getElem hle), List.length_append]
      omega
    rcases Nat.lt_or_eq_of_le (Nat.le_of_lt_succ hlt) with hlt | rfl
    · exact Nat.lt_trans (length_positionsWith_lt h hlt (Nat.le_of_succ_le hle)) hstep
    · exact hstep

theorem nodup_expand_iff {s : Signature} (hlast : s.OptionalLast)
    (hchoices : ∀ p ∈ s.params, p.type.choices ≠ [] ∧ p.type.choices.Nodup) :
    s.expand.Nodup ↔ ∀ g ∈ s.optionalGroups, g.params ≠ [] := by
  have htypes : ∀ count, ∀ type ∈ (s.positionsWith count).map Parameter.type,
      type.choices ≠ [] ∧ type.choices.Nodup := by
    intro count type htype
    obtain ⟨p, hp, rfl⟩ := List.mem_map.1 htype
    exact hchoices p (mem_params_of_mem_positionsWith hp)
  rw [expand, shapes_eq hlast, List.flatMap_map, List.nodup_flatMap]
  constructor
  · rintro ⟨_, hdisjoint⟩ g hg hempty
    obtain ⟨count, hcount, rfl⟩ := List.mem_iff_getElem.1 hg
    -- the empty group leaves the shape before it as it is
    have hsame : s.positionsWith (count + 1) = s.positionsWith count := by
      rw [positionsWith_succ (List.getElem?_eq_getElem hcount), hempty, List.append_nil]
    have hboth := List.pairwise_iff_getElem.1 hdisjoint count (count + 1)
      (by simp only [List.length_range]; omega) (by simp only [List.length_range]; omega)
      (Nat.lt_succ_self count)
    obtain ⟨key, hkey⟩ := Shape.exists_mem_keys (fun type htype => (htypes count type htype).1)
    simp only [List.getElem_range, hsame, Function.onFun] at hboth
    exact hboth hkey hkey
  · intro hgroups
    refine ⟨fun count _ => Shape.nodup_keys (fun type htype => (htypes count type htype).2), ?_⟩
    refine List.pairwise_lt_range.imp_of_mem ?_
    intro fewer more _ hmore hlt key hfewer hkey
    have hlength := length_positionsWith_lt hgroups hlt (Nat.le_of_lt_succ (List.mem_range.1 hmore))
    have hfewer := Shape.length_of_mem_keys hfewer
    have hkey := Shape.length_of_mem_keys hkey
    rw [List.length_map] at hfewer hkey
    omega

end Signature

/-! ### One entry -/

/-- Nothing is recorded over a key exactly if no two entries claim it. -/
theorem CollisionPolicy.recordOver_eq_nil_iff {policy : CollisionPolicy} {key : Key}
    {claimants : List (String × Nat)} (h : ∀ p ∈ claimants, p.2 ≠ 0) :
    policy.recordOver key claimants = [] ↔ claimants.length ≤ 1 := by
  have hkept : refusals key (spread claimants) = [] ↔ claimants.length ≤ 1 :=
    refusals_eq_nil_iff.trans (length_spread_le_one_iff h)
  cases policy with
  | lastDeclaredWins =>
    rw [recordOver, takeovers_eq_nil_iff, List.length_map]
  | firstDeclaredWins => exact hkept
  | reject => exact hkept

section
variable {β : Type} {engine : Engine β} {d : Description β} {r : Resolver β}

/-- A compiled table has no collisions exactly if no key is claimed by two entries. -/
theorem collisions_eq_nil_iff (hs : engine.stages = Stage.standard)
    (h : engine.compile d = .ok r) :
    r.table.collisions = [] ↔ ∀ key, (d.claimants key).length ≤ 1 := by
  have hover : ∀ key, r.table.collisionsOver key = [] ↔ (d.claimants key).length ≤ 1 := by
    intro key
    rw [collisionsOver_of_compile hs h]
    exact CollisionPolicy.recordOver_eq_nil_iff d.ne_zero_of_mem_claimants
  simp only [← hover]
  constructor
  · intro hnone key
    rw [DispatchTable.collisionsOver, hnone, List.filter_nil]
  · intro hnone
    refine List.eq_nil_iff_forall_not_mem.2 fun c hc => ?_
    have hmem : c ∈ r.table.collisionsOver c.key := List.mem_filter.2 ⟨hc, by simp⟩
    rw [hnone] at hmem
    cases hmem

/-- Behind the standard stages every shape has a key. -/
theorem Description.PlannedAs.key?_ne_none {planned : List (PlannedEntry β)}
    (h : d.PlannedAs planned) :
    ∀ e ∈ planned, ∀ shape ∈ e.shapes, Shape.key? shape ≠ none := by
  intro e he shape hshape
  obtain ⟨_, _, hstands⟩ := h.find?_source he
  rw [hstands.shapes_eq] at hshape
  obtain ⟨key, _, rfl⟩ := List.mem_map.1 hshape
  rw [Shape.key?_ofKey]
  exact Option.some_ne_none key

variable {source : String} {entry : Entry β} {method : Implementation β} {s : Signature}

/-- One entry with an implementation compiles: nothing else claims its keys, and no alias is left to
follow. -/
theorem exists_compile_of_single (hs : engine.stages = Stage.standard)
    (hd : d.toList = [(source, entry)])
    (hread : Signature.read (entry.signatureText source) = .ok s)
    (htarget : entry.target = .method method) (hdefaults : entry.defaults.length ≤ s.length) :
    ∃ r, engine.compile d = .ok r := by
  have hplannable : d.Plannable := by
    intro declared hdeclared
    rw [hd] at hdeclared
    obtain rfl := List.mem_singleton.1 hdeclared
    exact ⟨s, hread, hdefaults⟩
  obtain ⟨planned, hplan, _⟩ := hplannable.exists_plannedBehind (fun _ hstage => hs ▸ hstage)
  have hplanned := Engine.plan_standard hs hplan
  have hone : planned.length = 1 := by
    have hlength := List.Forall₂.length_eq hplanned
    rw [hd] at hlength
    exact hlength.symm
  have hsame : ∀ i j : Position planned, i = j := by
    intro i j
    exact Fin.ext (by omega)
  obtain ⟨claims, hclaims⟩ := Claims.exists_all_iff.2
    ⟨hplanned.key?_ne_none, fun (_ : engine.config.collisionPolicy = .reject) _ i j _ _ => hsame i j⟩
  have hchase : ∀ i, ∃ terminal,
      chase (findTarget? claims.owners) engine.config.maxAliasHops i = .ok terminal := by
    intro i
    obtain ⟨source', entry', hentry', hstands⟩ := hplanned.declared (List.getElem?_eq_getElem i.2)
    obtain ⟨rfl, rfl⟩ : source' = source ∧ entry' = entry := by
      rw [hd] at hentry'
      simpa using List.mem_singleton.1 (List.mem_of_getElem? hentry')
    exact ⟨i, chaseFrom_of_method (hstands.target_eq.trans htarget)⟩
  obtain ⟨t, ht⟩ := exists_buildTable_iff.2 ⟨claims, hclaims, hchase⟩
  exact ⟨⟨t, engine.classifier⟩, Engine.compile_eq_ok_iff.2 ⟨rfl, planned, hplan, ht⟩⟩

/-- REPETITIONS: what a signature that was read expands to repeats a key exactly if some optional group
is empty. Repeated or not, the signature compiles as the only entry under every policy; the table
holds the keys in the order of their first occurrence, and no collision. -/
theorem compile_single {text : String} (hread : Signature.read text = .ok s) :
    (s.expand.Nodup ↔ ∀ g ∈ s.groups, g.optional = true → g.params ≠ []) ∧
    ∀ (engine : Engine β) (source : String) (entry : Entry β) (method : Implementation β),
      engine.stages = Stage.standard → entry.signatureText source = text →
      entry.target = .method method → entry.defaults.length ≤ s.length →
        ∃ r, engine.compile (Description.empty.insert source entry) = .ok r ∧
          r.table.keys.keys = s.expand.eraseDups ∧ r.table.collisions = [] := by
  constructor
  · rw [Signature.nodup_expand_iff (Signature.optionalLast_of_read hread)
      (Signature.choices_of_read hread)]
    simp only [Signature.optionalGroups, List.mem_filter, and_imp]
  · rintro engine source entry method hs rfl htarget hdefaults
    have hd : (Description.empty.insert source entry).toList = [(source, entry)] := rfl
    obtain ⟨r, hr⟩ := exists_compile_of_single hs hd hread htarget hdefaults
    obtain ⟨planned, hplan, claims, hclaims, ht⟩ := Engine.compile_eq_ok hr
    have hexpansions : (Description.empty.insert source entry).expansions = s.expand := by
      simp [Description.expansions, hd, hread]
    refine ⟨r, hr, ?_, (collisions_eq_nil_iff hs hr).2 fun key => ?_⟩
    · rw [ht.keys_eq, (Claims.settled_all hclaims).keys_eq,
        ← (Engine.plan_standard hs hplan).expansions_eq, hexpansions]
    · rw [Description.claimants, hd]
      exact List.length_filter_le _ _

/-- An optional group without positions, and a default for the first position. -/
def insisting : Entry Unit :=
  .overload ⟨"[a|b] []? [c]?", [.null], ⟨"pick", 0, [], ()⟩⟩

theorem compile_single_insisting : ∃ s r, Signature.read "[a|b] []? [c]?" = .ok s ∧
    ¬s.expand.Nodup ∧
    (Engine.settling .reject).compile (Description.empty.insert "pick" insisting) = .ok r ∧
    r.table.keys.keys = [⟨["a"]⟩, ⟨["b"]⟩, ⟨["a", "c"]⟩, ⟨["b", "c"]⟩] ∧ r.table.collisions = [] := by
  obtain ⟨s, hs, h⟩ : ∃ s, Signature.read "[a|b] []? [c]?" = .ok s ∧
      (s.groups.any (fun g => g.optional && g.params.isEmpty), s.length, s.expand.eraseDups) =
        (true, 2, [⟨["a"]⟩, ⟨["b"]⟩, ⟨["a", "c"]⟩, ⟨["b", "c"]⟩]) :=
    exists_ok_of_toOption (by decide +kernel)
  simp only [Prod.mk.injEq] at h
  obtain ⟨hempty, hlength, hkeys⟩ := h
  obtain ⟨hnodup, hcompile⟩ := compile_single hs
  obtain ⟨r, hr, htable, hcollisions⟩ := hcompile (Engine.settling .reject) "pick" insisting
    ⟨"pick", 0, [], ()⟩ rfl rfl rfl (by rw [hlength]; decide)
  refine ⟨s, r, hs, ?_, hr, htable.trans hkeys, hcollisions⟩
  intro hdistinct
  obtain ⟨g, hg, hboth⟩ := List.any_eq_true.1 hempty
  obtain ⟨hoptional, hnone⟩ := Bool.and_eq_true_iff.1 hboth
  exact hnodup.1 hdistinct g hg hoptional (List.isEmpty_iff.1 hnone)

end

end ShapeDispatch
