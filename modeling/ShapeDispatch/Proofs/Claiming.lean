import ShapeDispatch.Proofs.Planning

/-!
Who owns a key once all entries have claimed theirs. The claims are a sequence of keys with their
claimants (`claimSequence`), claimants in the order declared; `Claims.Settled` says what is known
behind any beginning of it: a key stands at the place of its first claim, and its owner is one of its
claimants, the one that the policy keeps. What a single claim can come to is listed once
(`Claims.Answer`), and from there follows when claiming succeeds at all (`Claims.exists_all_iff`).
-/

namespace ShapeDispatch
variable {β : Type} {planned : List (PlannedEntry β)}

/-- Whether a policy leaves a key to the claimant at `owner` although the one at `other` claims it. -/
def CollisionPolicy.Keeps (policy : CollisionPolicy) (owner other : Nat) : Prop :=
  match policy with
  | .lastDeclaredWins => other ≤ owner
  | .firstDeclaredWins => owner ≤ other
  | .reject => other = owner

theorem CollisionPolicy.keeps_self (policy : CollisionPolicy) (owner : Nat) :
    policy.Keeps owner owner := by
  cases policy <;> simp [Keeps]

theorem CollisionPolicy.keeps_antisymm {policy : CollisionPolicy} {i j : Nat}
    (hij : policy.Keeps i j) (hji : policy.Keeps j i) : i = j := by
  cases policy with
  | lastDeclaredWins => exact Nat.le_antisymm hji hij
  | firstDeclaredWins => exact Nat.le_antisymm hij hji
  | reject => exact hji

/-- The claims that a claimant makes with these shapes. -/
def claimsWith (claimant : Position planned) (shapes : List Shape) :
    List (Key × Position planned) :=
  (shapes.filterMap Shape.key?).map (fun key => (key, claimant))

/-- The claims that the entries at these positions make. -/
def claimsAt (planned : List (PlannedEntry β)) (positions : List (Position planned)) :
    List (Key × Position planned) :=
  positions.flatMap (fun i => (planned.get i).claimedKeys.map (fun key => (key, i)))

/-- All claims, in the order in which they are made. -/
def claimSequence (planned : List (PlannedEntry β)) : List (Key × Position planned) :=
  claimsAt planned (List.finRange planned.length)

theorem mem_claimsAt {positions : List (Position planned)} {key : Key} {i : Position planned} :
    (key, i) ∈ claimsAt planned positions ↔
      i ∈ positions ∧ key ∈ (planned.get i).claimedKeys := by
  simp only [claimsAt, List.mem_flatMap, List.mem_map, Prod.mk.injEq]
  constructor
  · rintro ⟨j, hj, key, hkey, rfl, rfl⟩
    exact ⟨hj, hkey⟩
  · rintro ⟨hi, hkey⟩
    exact ⟨i, hi, key, hkey, rfl, rfl⟩

theorem mem_claimSequence {key : Key} {i : Position planned} :
    (key, i) ∈ claimSequence planned ↔ key ∈ (planned.get i).claimedKeys := by
  simp [claimSequence, mem_claimsAt, List.mem_finRange]

theorem claimsAt_concat (positions : List (Position planned)) (i : Position planned) :
    claimsAt planned (positions ++ [i]) =
      claimsAt planned positions ++ (planned.get i).claimedKeys.map (fun key => (key, i)) := by
  simp [claimsAt]

theorem keys_claimSequence (planned : List (PlannedEntry β)) :
    (claimSequence planned).map Prod.fst = planned.flatMap PlannedEntry.claimedKeys := by
  calc (claimSequence planned).map Prod.fst
      = (List.finRange planned.length).flatMap (fun i => (planned.get i).claimedKeys) := by
        simp [claimSequence, claimsAt, List.map_flatMap, Function.comp_def]
    _ = ((List.finRange planned.length).map planned.get).flatMap PlannedEntry.claimedKeys := by
        rw [List.flatMap_map]
    _ = planned.flatMap PlannedEntry.claimedKeys := by rw [List.map_get_finRange]

namespace Claims

/-- What a claim can come to: the key is free, the claimant owns it already, the policy hands it over to
the claimant or leaves it to its owner, or the claim is refused. -/
inductive Answer (policy : CollisionPolicy) (c : Claims planned) (key : Key)
    (claimant : Position planned) : Except CompileError (Claims planned) → Prop where
  | free : c.owners.find? key = none →
    Answer policy c key claimant (.ok ⟨c.owners.insert key claimant, c.collisions⟩)
  | again : c.owners.find? key = some claimant → Answer policy c key claimant (.ok c)
  | taken {owner : Position planned} : policy = .lastDeclaredWins →
    c.owners.find? key = some owner → owner ≠ claimant →
      Answer policy c key claimant (.ok (c.settle key claimant claimant owner))
  | kept {owner : Position planned} : policy = .firstDeclaredWins →
    c.owners.find? key = some owner → owner ≠ claimant →
      Answer policy c key claimant (.ok (c.settle key owner owner claimant))
  | refused {owner : Position planned} : policy = .reject →
    c.owners.find? key = some owner → owner ≠ claimant →
      Answer policy c key claimant
        (.error (.collision key (planned.get owner).source (planned.get claimant).source))

theorem answer_claim (policy : CollisionPolicy) (c : Claims planned) (key : Key)
    (claimant : Position planned) : Answer policy c key claimant (c.claim policy key claimant) := by
  unfold claim
  split
  · next hnone => exact .free hnone
  · next owner howner =>
    split
    · next hown => exact .again (hown ▸ howner)
    · next hother =>
      cases policy with
      | lastDeclaredWins => exact .taken rfl howner hother
      | firstDeclaredWins => exact .kept rfl howner hother
      | reject => exact .refused rfl howner hother

/-- What is known once the claims `made` are settled. -/
structure Settled (policy : CollisionPolicy) (made : List (Key × Position planned))
    (c : Claims planned) : Prop where
  keys_eq : c.owners.keys = (made.map Prod.fst).eraseDups
  owner_mem : ∀ {key owner}, c.owners.find? key = some owner → (key, owner) ∈ made
  owner_kept : ∀ {key owner other}, c.owners.find? key = some owner → (key, other) ∈ made →
    policy.Keeps owner other

theorem settled_empty (policy : CollisionPolicy) :
    Settled policy [] (empty : Claims planned) where
  keys_eq := rfl
  owner_mem h := by cases h
  owner_kept h := by cases h

section
variable {policy : CollisionPolicy} {made : List (Key × Position planned)} {c c' : Claims planned}
  {key : Key} {claimant : Position planned}

theorem Settled.mem_keys_iff (hc : c.Settled policy made) :
    key ∈ c.owners.keys ↔ key ∈ made.map Prod.fst := by
  rw [hc.keys_eq, List.mem_eraseDups]

theorem Settled.exists_owner (hc : c.Settled policy made) {i : Position planned}
    (hi : (key, i) ∈ made) : ∃ owner, c.owners.find? key = some owner := by
  have hkey : key ∈ c.owners.keys := hc.mem_keys_iff.2 (List.mem_map.2 ⟨_, hi, rfl⟩)
  exact Option.isSome_iff_exists.1 (OrderedMap.contains_iff.2 hkey)

/-- The owner of a key is the claimant that the policy keeps before all others. -/
theorem Settled.find?_eq_some_iff (hc : c.Settled policy made) {i : Position planned} :
    c.owners.find? key = some i ↔ (key, i) ∈ made ∧ ∀ j, (key, j) ∈ made → policy.Keeps i j := by
  constructor
  · intro hi
    exact ⟨hc.owner_mem hi, fun j hj => hc.owner_kept hi hj⟩
  · rintro ⟨hi, hkept⟩
    obtain ⟨owner, howner⟩ := hc.exists_owner hi
    have hsame := policy.keeps_antisymm (hc.owner_kept howner hi) (hkept _ (hc.owner_mem howner))
    rw [howner, Fin.ext hsame]

/-- Where collisions are rejected, whoever claims a key owns it. -/
theorem Settled.find?_of_mem (hc : c.Settled .reject made) {i : Position planned}
    (hi : (key, i) ∈ made) : c.owners.find? key = some i := by
  obtain ⟨owner, howner⟩ := hc.exists_owner hi
  rw [howner, Fin.ext (hc.owner_kept howner hi)]

/-- Giving the key to the claimant or leaving it where it is settles a claim, if the policy keeps that
owner before all claimants so far and the new one. -/
theorem Settled.insert (hc : c.Settled policy made) {owner : Position planned}
    {collisions : List Collision} (hmem : (key, owner) ∈ made ++ [(key, claimant)])
    (hkept : ∀ other, (key, other) ∈ made ++ [(key, claimant)] → policy.Keeps owner other) :
    Settled policy (made ++ [(key, claimant)]) ⟨c.owners.insert key owner, collisions⟩ where
  keys_eq := by
    rw [OrderedMap.keys_insert, List.map_append, List.map_singleton, eraseDups_concat, hc.keys_eq]
    simp only [List.mem_eraseDups]
  owner_mem := by
    intro key' owner' h
    rw [OrderedMap.find?_insert] at h
    split at h
    · next heq =>
      cases h
      exact heq ▸ hmem
    · exact List.mem_append_left _ (hc.owner_mem h)
  owner_kept := by
    intro key' owner' other h hother
    rw [OrderedMap.find?_insert] at h
    split at h
    · next heq =>
      cases h
      exact hkept other (heq ▸ hother)
    · next hne =>
      rcases List.mem_append.1 hother with hother | hother
      · exact hc.owner_kept h hother
      · rw [List.mem_singleton] at hother
        cases hother
        exact absurd rfl hne

/-- An entry may claim its own key again. -/
theorem Settled.again (hc : c.Settled policy made) (h : c.owners.find? key = some claimant) :
    Settled policy (made ++ [(key, claimant)]) c where
  keys_eq := by
    have hk : key ∈ made.map Prod.fst := List.mem_map.2 ⟨_, hc.owner_mem h, rfl⟩
    rw [List.map_append, List.map_singleton, eraseDups_concat, if_pos hk, hc.keys_eq]
  owner_mem h' := List.mem_append_left _ (hc.owner_mem h')
  owner_kept := by
    intro key' owner' other h' hother
    rcases List.mem_append.1 hother with hother | hother
    · exact hc.owner_kept h' hother
    · rw [List.mem_singleton] at hother
      cases hother
      rw [h] at h'
      cases h'
      exact policy.keeps_self _

/-- One claim, by an entry that no claimant so far was declared behind. -/
theorem Settled.claim (hc : c.Settled policy made) (hlast : ∀ p ∈ made, p.2 ≤ claimant)
    (h : c.claim policy key claimant = .ok c') :
    c'.Settled policy (made ++ [(key, claimant)]) := by
  have hanswer := answer_claim policy c key claimant
  rw [h] at hanswer
  cases hanswer with
  | free hnone =>
    have hfree : ∀ other, (key, other) ∉ made := by
      intro other hmem
      rw [OrderedMap.find?_eq_none_iff, hc.mem_keys_iff] at hnone
      exact hnone (List.mem_map.2 ⟨_, hmem, rfl⟩)
    refine hc.insert (by simp) ?_
    intro other hother
    obtain rfl : other = claimant := by simpa [hfree other] using hother
    exact policy.keeps_self _
  | again hown => exact hc.again hown
  | taken hpolicy _ _ =>
    subst hpolicy
    refine hc.insert (by simp) ?_
    intro other hother
    rcases List.mem_append.1 hother with hother | hother
    · exact hlast _ hother
    · rw [List.mem_singleton] at hother
      cases hother
      exact Nat.le_refl _
  | @kept owner hpolicy howner _ =>
    subst hpolicy
    have hmem : (key, owner) ∈ made := hc.owner_mem howner
    refine hc.insert (List.mem_append_left _ hmem) ?_
    intro other hother
    rcases List.mem_append.1 hother with hother | hother
    · exact hc.owner_kept howner hother
    · rw [List.mem_singleton] at hother
      cases hother
      exact hlast _ hmem

theorem claimShape_eq_ok {shape : Shape} (h : c.claimShape policy claimant shape = .ok c') :
    ∃ key, Shape.key? shape = some key ∧ c.claim policy key claimant = .ok c' := by
  unfold claimShape at h
  split at h
  · next key hkey => exact ⟨key, hkey, h⟩
  · cases h

/-- What every claim keeps that is made behind claims of entries declared no later. -/
def KeptByClaims (policy : CollisionPolicy)
    (Inv : List (Key × Position planned) → Claims planned → Prop) : Prop :=
  ∀ {made c c' key claimant}, (∀ p ∈ made, p.2 ≤ claimant) → Inv made c →
    c.claim policy key claimant = .ok c' → Inv (made ++ [(key, claimant)]) c'

/-- All claims of one entry. -/
theorem KeptByClaims.claimEntry {Inv : List (Key × Position planned) → Claims planned → Prop}
    (hkept : KeptByClaims policy Inv) (hc : Inv made c) (hlast : ∀ p ∈ made, p.2 ≤ claimant)
    (h : c.claimEntry policy claimant = .ok c') :
    Inv (made ++ (planned.get claimant).claimedKeys.map (fun key => (key, claimant))) c' := by
  refine foldlM_ok_inv (fun shapes c => Inv (made ++ claimsWith claimant shapes) c) []
    (by simpa [claimsWith] using hc) ?_ h
  intro seen shape rest s s' _ hs hstep
  obtain ⟨key, hkey, hclaim⟩ := claimShape_eq_ok hstep
  have hbound : ∀ p ∈ made ++ claimsWith claimant seen, p.2 ≤ claimant := by
    intro p hp
    rcases List.mem_append.1 hp with hp | hp
    · exact hlast p hp
    · obtain ⟨_, _, rfl⟩ := List.mem_map.1 hp
      exact Nat.le_refl _
  have hnext : claimsWith claimant (seen ++ [shape]) =
      claimsWith claimant seen ++ [(key, claimant)] := by
    simp [claimsWith, hkey]
  rw [hnext, ← List.append_assoc]
  exact hkept hbound hs hclaim

end

/-- What every claim keeps holds behind all claims where claiming succeeds. -/
theorem KeptByClaims.all {policy : CollisionPolicy}
    {Inv : List (Key × Position planned) → Claims planned → Prop} {c : Claims planned}
    (hkept : KeptByClaims policy Inv) (h0 : Inv [] empty) (h : all policy planned = .ok c) :
    Inv (claimSequence planned) c := by
  refine foldlM_ok_inv (fun positions c => Inv (claimsAt planned positions) c) [] h0 ?_ h
  intro seen i rest s s' hsplit hs hstep
  rw [claimsAt_concat]
  refine hkept.claimEntry hs ?_ hstep
  rintro ⟨key, j⟩ hj
  have hsorted : (seen ++ i :: rest).Pairwise (· < ·) := by
    rw [← hsplit]
    exact List.pairwise_lt_finRange _
  exact Nat.le_of_lt ((List.pairwise_append.1 hsorted).2.2 j (mem_claimsAt.1 hj).1 i (by simp))

/-- All claims are settled where claiming succeeds. -/
theorem settled_all {policy : CollisionPolicy} {c : Claims planned}
    (h : all policy planned = .ok c) : c.Settled policy (claimSequence planned) :=
  KeptByClaims.all (fun hlast hc hclaim => hc.claim hlast hclaim) (settled_empty policy) h

/-- Claiming succeeds only if every shape has a key. -/
theorem key?_ne_none_of_all {policy : CollisionPolicy} {c : Claims planned}
    (h : all policy planned = .ok c) {e : PlannedEntry β} (he : e ∈ planned) {shape : Shape}
    (hshape : shape ∈ e.shapes) : Shape.key? shape ≠ none := by
  obtain ⟨i, rfl⟩ := List.get_of_mem he
  obtain ⟨s, s', hentry⟩ := exists_step_of_foldlM h i (List.mem_finRange i)
  obtain ⟨_, _, hclaim⟩ := exists_step_of_foldlM hentry shape hshape
  obtain ⟨key, hkey, _⟩ := claimShape_eq_ok hclaim
  simp [hkey]

/-- Every key is owned by an entry that claims it. -/
def Justified (c : Claims planned) : Prop :=
  ∀ key owner, c.owners.find? key = some owner → key ∈ (planned.get owner).claimedKeys

section
variable {policy : CollisionPolicy} {c c' : Claims planned} {key : Key}
  {claimant owner : Position planned}

theorem Justified.insert (hc : c.Justified) (hkey : key ∈ (planned.get owner).claimedKeys)
    {collisions : List Collision} :
    (⟨c.owners.insert key owner, collisions⟩ : Claims planned).Justified := by
  intro key' owner' h
  rw [OrderedMap.find?_insert] at h
  split at h
  · next hsame =>
    cases h
    exact hsame ▸ hkey
  · exact hc _ _ h

theorem Justified.claimShape (hc : c.Justified) {shape : Shape}
    (hshape : shape ∈ (planned.get claimant).shapes)
    (h : c.claimShape policy claimant shape = .ok c') : c'.Justified := by
  obtain ⟨key, hkey, hclaim⟩ := claimShape_eq_ok h
  have hclaims : key ∈ (planned.get claimant).claimedKeys := List.mem_filterMap.2 ⟨_, hshape, hkey⟩
  have hanswer := answer_claim policy c key claimant
  rw [hclaim] at hanswer
  cases hanswer with
  | free _ => exact hc.insert hclaims
  | again _ => exact hc
  | taken _ _ _ => exact hc.insert hclaims
  | kept _ howner _ => exact hc.insert (hc _ _ howner)

theorem Justified.claimEntry (hc : c.Justified) (h : c.claimEntry policy claimant = .ok c') :
    c'.Justified := by
  refine foldlM_ok_inv (fun _ s => s.Justified) [] hc ?_ h
  intro seen shape rest s s' hsplit hs hstep
  refine hs.claimShape ?_ hstep
  rw [List.nil_append] at hsplit
  rw [hsplit]
  exact List.mem_append_right _ (List.mem_cons_self ..)

end

/-- Claiming fails for a shape without a key, or because two entries claim a key and collisions are
rejected. -/
theorem all_error_cases {policy : CollisionPolicy} {error : CompileError}
    (h : all policy planned = .error error) :
    (∃ e ∈ planned, ∃ shape ∈ e.shapes, Shape.key? shape = none ∧
      error = .unexpandedShape e.source (Shape.render shape)) ∨
    policy = .reject ∧ ∃ key, ∃ i j : Position planned, i ≠ j ∧
      key ∈ (planned.get i).claimedKeys ∧ key ∈ (planned.get j).claimedKeys := by
  obtain ⟨i, _, s, hs, hentry⟩ := exists_step_of_foldlM_error Justified
    (fun _ _ h => by cases h) (fun _ _ _ _ hs hstep => hs.claimEntry hstep) h
  obtain ⟨shape, hshape, s, hs, hclaim⟩ := exists_step_of_foldlM_error Justified hs
    (fun _ hshape _ _ hs hstep => hs.claimShape hshape hstep) hentry
  unfold claimShape at hclaim
  split at hclaim
  · next key hkey =>
    have hanswer := answer_claim policy s key i
    rw [hclaim] at hanswer
    cases hanswer with
    | @refused owner hpolicy howner hne =>
      exact .inr ⟨hpolicy, key, owner, i, hne, hs _ _ howner, List.mem_filterMap.2 ⟨_, hshape, hkey⟩⟩
  · next hkey =>
    cases hclaim
    exact .inl ⟨planned.get i, List.get_mem planned i, shape, hshape, hkey, rfl⟩

/-- Unless collisions are rejected, claiming fails only for a shape without a key. -/
theorem all_eq_error {policy : CollisionPolicy} (hpolicy : policy ≠ .reject)
    {error : CompileError} (h : all policy planned = .error error) :
    ∃ e ∈ planned, ∃ shape ∈ e.shapes, Shape.key? shape = none ∧
      error = .unexpandedShape e.source (Shape.render shape) :=
  (all_error_cases h).resolve_right (fun hrejected => hpolicy hrejected.1)

/-- Claiming succeeds exactly if every shape has a key and, where collisions are rejected, no key has
two claimants. -/
theorem exists_all_iff {policy : CollisionPolicy} :
    (∃ c, all policy planned = .ok c) ↔
      (∀ e ∈ planned, ∀ shape ∈ e.shapes, Shape.key? shape ≠ none) ∧
      (policy = .reject → ∀ key, ∀ i j : Position planned,
        key ∈ (planned.get i).claimedKeys → key ∈ (planned.get j).claimedKeys → i = j) := by
  constructor
  · rintro ⟨c, hc⟩
    refine ⟨fun e he shape hshape => key?_ne_none_of_all hc he hshape, ?_⟩
    rintro rfl key i j hi hj
    have hsettled := settled_all hc
    have hown := hsettled.find?_of_mem (mem_claimSequence.2 hi)
    rw [hsettled.find?_of_mem (mem_claimSequence.2 hj)] at hown
    exact (Option.some.inj hown).symm
  · rintro ⟨hshapes, hdisjoint⟩
    cases hall : all policy planned with
    | ok c => exact ⟨c, rfl⟩
    | error error =>
      obtain ⟨e, he, shape, hshape, hnone, _⟩ | ⟨hpolicy, key, i, j, hne, hi, hj⟩ :=
        all_error_cases hall
      · exact absurd hnone (hshapes e he shape hshape)
      · exact absurd (hdisjoint hpolicy key i j hi hj) hne

end Claims

end ShapeDispatch
