import ShapeDispatch.Proofs.Reordering

/-!
The record of collisions. Over each key, where the last declaration wins, every claimant takes the key
from the one before it, and that is recorded once. Where the first one wins, it keeps the key from
every other claimant, and that is recorded as often as the other one claims the key
(`compile_collisions`).
-/

namespace ShapeDispatch
variable {β : Type}

/-- Each claimant takes the key from the one before it. -/
def takeovers (key : Key) (claimants : List String) : List Collision :=
  (claimants.zip claimants.tail).map (fun pair => ⟨key, pair.2, pair.1⟩)

/-- The first claimant keeps the key from each of the others. -/
def refusals (key : Key) : List String → List Collision
  | [] => []
  | first :: others => others.map (fun source => ⟨key, first, source⟩)

/-- The collisions over a key, oldest first. -/
def DispatchTable.collisionsOver (t : DispatchTable β) (key : Key) : List Collision :=
  t.collisions.filter (fun c => c.key = key)

theorem takeovers_concat (key : Key) {a b : String} : ∀ {claimants : List String},
    claimants.getLast? = some b →
      takeovers key (claimants ++ [a]) = takeovers key claimants ++ [⟨key, a, b⟩]
  | [first], h => by
    cases h
    rfl
  | first :: second :: others, h => by
    rw [List.getLast?_cons_cons] at h
    have ih := takeovers_concat key (a := a) h
    simp only [takeovers, List.cons_append, List.tail_cons, List.zip_cons_cons,
      List.map_cons] at ih ⊢
    rw [ih]

theorem refusals_concat {key : Key} {a b : String} {claimants : List String}
    (h : claimants.head? = some b) :
    refusals key (claimants ++ [a]) = refusals key claimants ++ [⟨key, b, a⟩] := by
  obtain ⟨others, rfl⟩ := List.head?_eq_some_iff.1 h
  simp [refusals]

/-- The list without repetitions of its first element. -/
def headOnce {α : Type} [DecidableEq α] : List α → List α
  | [] => []
  | first :: others => first :: others.filter (fun a => !a == first)

theorem headOnce_concat {α : Type} [DecidableEq α] {l : List α} {a first : α}
    (h : l.head? = some first) :
    headOnce (l ++ [a]) = if a = first then headOnce l else headOnce l ++ [a] := by
  obtain ⟨others, rfl⟩ := List.head?_eq_some_iff.1 h
  by_cases ha : a = first <;> simp [headOnce, ha]

/-! ### The account of a key -/

section
variable {planned : List (PlannedEntry β)}

/-- The entries that claim a key, as often as they do. -/
def claimantsOf (made : List (Key × Position planned)) (key : Key) : List (Position planned) :=
  (made.filter (fun claim => claim.1 = key)).map Prod.snd

theorem claimantsOf_concat (made : List (Key × Position planned)) (key key' : Key)
    (i : Position planned) : claimantsOf (made ++ [(key, i)]) key' =
      if key = key' then claimantsOf made key' ++ [i] else claimantsOf made key' := by
  by_cases h : key = key' <;> simp [claimantsOf, h]

theorem mem_claimantsOf {made : List (Key × Position planned)} {key : Key} {i : Position planned} :
    i ∈ claimantsOf made key ↔ (key, i) ∈ made := by
  simp [claimantsOf]

theorem sourcesAt_concat (positions : List (Position planned)) (i : Position planned) :
    sourcesAt planned (positions ++ [i]) =
      sourcesAt planned positions ++ [(planned.get i).source] := by
  simp [sourcesAt]

/-- Who owns a key that these entries claimed one after the other, and what is recorded over it. -/
def CollisionPolicy.account (policy : CollisionPolicy) (key : Key)
    (claimants : List (Position planned)) : Option (Position planned) × List Collision :=
  match policy with
  | .lastDeclaredWins =>
    (claimants.eraseDups.getLast?, takeovers key (sourcesAt planned claimants.eraseDups))
  | _ => (claimants.head?, refusals key (sourcesAt planned (headOnce claimants)))

namespace CollisionPolicy
variable {policy : CollisionPolicy} {key : Key} {claimants : List (Position planned)}
  {i owner : Position planned}

theorem account_nil (policy : CollisionPolicy) (key : Key) :
    policy.account key ([] : List (Position planned)) = (none, []) := by
  cases policy <;> rfl

theorem account_singleton (policy : CollisionPolicy) (key : Key) (i : Position planned) :
    policy.account key [i] = (some i, []) := by
  cases policy <;> rfl

theorem account_eq_none_iff (policy : CollisionPolicy) (key : Key)
    {claimants : List (Position planned)} : (policy.account key claimants).1 = none ↔ claimants = [] := by
  cases claimants <;> cases policy <;> simp [account, List.eraseDups_cons]

/-- An owner that claims its key again changes nothing. -/
theorem account_again (h : (policy.account key claimants).1 = some i) :
    policy.account key (claimants ++ [i]) = policy.account key claimants := by
  have hfirst (h : claimants.head? = some i) : (claimants ++ [i]).head? = claimants.head? ∧
      headOnce (claimants ++ [i]) = headOnce claimants := by
    rw [headOnce_concat h, if_pos rfl, List.head?_append, h]
    exact ⟨rfl, rfl⟩
  cases policy with
  | lastDeclaredWins =>
    have hmem : i ∈ claimants := List.mem_eraseDups.1 (List.mem_of_getLast? h)
    simp only [account, eraseDups_concat, if_pos hmem]
  | firstDeclaredWins => simp only [account, hfirst h]
  | reject => simp only [account, hfirst h]

/-- A new claimant takes the key where the last declaration wins. -/
theorem account_taken (h : (account .lastDeclaredWins key claimants).1 = some owner)
    (hnew : i ∉ claimants) : account .lastDeclaredWins key (claimants ++ [i]) =
      (some i, (account .lastDeclaredWins key claimants).2 ++
        [⟨key, (planned.get i).source, (planned.get owner).source⟩]) := by
  have hlast : (sourcesAt planned claimants.eraseDups).getLast? =
      some (planned.get owner).source := by
    rw [sourcesAt, List.getLast?_map]
    exact congrArg (Option.map _) h
  simp only [account, eraseDups_concat, if_neg hnew, List.getLast?_concat, sourcesAt_concat,
    takeovers_concat key hlast]

/-- The first claimant keeps the key where the first declaration wins. -/
theorem account_kept (h : (account .firstDeclaredWins key claimants).1 = some owner)
    (hother : owner ≠ i) : account .firstDeclaredWins key (claimants ++ [i]) =
      (some owner, (account .firstDeclaredWins key claimants).2 ++
        [⟨key, (planned.get owner).source, (planned.get i).source⟩]) := by
  have h : claimants.head? = some owner := h
  have hfirst : (sourcesAt planned (headOnce claimants)).head? =
      some (planned.get owner).source := by
    obtain ⟨others, rfl⟩ := List.head?_eq_some_iff.1 h
    rfl
  simp only [account, headOnce_concat h, if_neg hother.symm, List.head?_append, h, Option.some_or,
    sourcesAt_concat, refusals_concat hfirst]

end CollisionPolicy

namespace Claims
variable {policy : CollisionPolicy} {made : List (Key × Position planned)} {c c' : Claims planned}
  {key : Key} {claimant : Position planned}

/-- The collisions over a key so far. -/
def recorded (c : Claims planned) (key : Key) : List Collision :=
  c.collisions.filter (fun collision => collision.key = key)

theorem recorded_settle (c : Claims planned) (key key' : Key) (owner kept dropped : Position planned) :
    (c.settle key owner kept dropped).recorded key' = if key = key' then
      c.recorded key' ++ [⟨key, (planned.get kept).source, (planned.get dropped).source⟩]
      else c.recorded key' := by
  by_cases h : key = key' <;> simp [recorded, settle, h]

/-- A claim leaves the other keys alone. -/
theorem find?_of_claim_other (h : c.claim policy key claimant = .ok c') {other : Key}
    (hother : key ≠ other) :
    c'.owners.find? other = c.owners.find? other ∧ c'.recorded other = c.recorded other := by
  have hanswer := answer_claim policy c key claimant
  rw [h] at hanswer
  cases hanswer with
  | free _ => exact ⟨by rw [OrderedMap.find?_insert, if_neg hother], rfl⟩
  | again _ => exact ⟨rfl, rfl⟩
  | taken _ _ _ =>
    rw [recorded_settle, if_neg hother, settle, OrderedMap.find?_insert, if_neg hother]
    exact ⟨rfl, rfl⟩
  | kept _ _ _ =>
    rw [recorded_settle, if_neg hother, settle, OrderedMap.find?_insert, if_neg hother]
    exact ⟨rfl, rfl⟩

/-- The claims are settled, and every key has the owner and the record that its claimants give it. -/
structure Accounted (policy : CollisionPolicy) (made : List (Key × Position planned))
    (c : Claims planned) : Prop where
  settled : c.Settled policy made
  account_eq : ∀ key, policy.account key (claimantsOf made key) = (c.owners.find? key, c.recorded key)

theorem accounted_empty (policy : CollisionPolicy) : Accounted policy [] (empty : Claims planned) where
  settled := settled_empty policy
  account_eq := policy.account_nil

/-- A claim gives its key the owner and the record that it is due with one more claimant. -/
theorem Accounted.account_claim (hc : c.Accounted policy made)
    (hlast : ∀ p ∈ made, p.2 ≤ claimant) (h : c.claim policy key claimant = .ok c') :
    policy.account key (claimantsOf made key ++ [claimant]) =
      (c'.owners.find? key, c'.recorded key) := by
  have hkey := hc.account_eq key
  have hanswer := answer_claim policy c key claimant
  rw [h] at hanswer
  cases hanswer with
  | free hnone =>
    have hclaimants : claimantsOf made key = [] := by
      rw [← policy.account_eq_none_iff key, hkey, hnone]
    rw [hclaimants, policy.account_nil] at hkey
    have hover : c.recorded key = [] := (congrArg Prod.snd hkey.symm :)
    rw [hclaimants, List.nil_append, policy.account_singleton, OrderedMap.find?_insert, if_pos rfl]
    exact congrArg _ hover.symm
  | again hown =>
    rw [policy.account_again (by rw [hkey, hown]), hkey]
  | @taken owner hpolicy howner hne =>
    subst hpolicy
    have hnew : claimant ∉ claimantsOf made key := by
      intro hmem
      have hle : claimant ≤ owner := hc.settled.owner_kept howner (mem_claimantsOf.1 hmem)
      exact hne (Fin.le_antisymm (hlast _ (hc.settled.owner_mem howner)) hle)
    rw [CollisionPolicy.account_taken (by rw [hkey, howner]) hnew, hkey, recorded_settle, if_pos rfl,
      settle, OrderedMap.find?_insert, if_pos rfl]
  | @kept owner hpolicy howner hne =>
    subst hpolicy
    rw [CollisionPolicy.account_kept (by rw [hkey, howner]) hne, hkey, recorded_settle, if_pos rfl,
      settle, OrderedMap.find?_insert, if_pos rfl]

theorem Accounted.claim (hc : c.Accounted policy made) (hlast : ∀ p ∈ made, p.2 ≤ claimant)
    (h : c.claim policy key claimant = .ok c') :
    c'.Accounted policy (made ++ [(key, claimant)]) where
  settled := hc.settled.claim hlast h
  account_eq other := by
    rw [claimantsOf_concat]
    by_cases hsame : key = other
    · rw [if_pos hsame, ← hsame]
      exact hc.account_claim hlast h
    · obtain ⟨howner, hover⟩ := find?_of_claim_other h hsame
      rw [if_neg hsame, hc.account_eq other, howner, hover]

/-- All claims are accounted for where claiming succeeds. -/
theorem accounted_all (h : all policy planned = .ok c) :
    c.Accounted policy (claimSequence planned) :=
  KeptByClaims.all (fun hlast hc hclaim => hc.claim hlast hclaim) (accounted_empty policy) h

end Claims
end

/-! ### The claimants of a key -/

section
variable {α γ : Type}

/-- Each element as often as it is counted. -/
def repeated (counted : List (α × Nat)) : List α :=
  counted.flatMap (fun p => List.replicate p.2 p.1)

/-- The first element once, and each of the others as often as it is counted. -/
def spread : List (α × Nat) → List α
  | [] => []
  | first :: others => first.1 :: repeated others

theorem repeated_cons (p : α × Nat) (counted : List (α × Nat)) :
    repeated (p :: counted) = List.replicate p.2 p.1 ++ repeated counted :=
  List.flatMap_cons

theorem mem_of_mem_repeated {counted : List (α × Nat)} {a : α} (h : a ∈ repeated counted) :
    a ∈ counted.map Prod.fst := by
  obtain ⟨p, hp, ha⟩ := List.mem_flatMap.1 h
  exact List.mem_map.2 ⟨p, hp, (List.eq_of_mem_replicate ha).symm⟩

/-- What is not counted at all may be left out. -/
theorem repeated_filter (counted : List (α × Nat)) :
    repeated (counted.filter (fun p => p.2 ≠ 0)) = repeated counted := by
  induction counted with
  | nil => rfl
  | cons p counted ih =>
    rw [repeated_cons, ← ih, List.filter_cons]
    by_cases hp : p.2 = 0
    · simp [hp]
    · simp [hp, repeated_cons]

theorem map_repeated (f : α → γ) (counted : List (α × Nat)) :
    (repeated counted).map f = repeated (counted.map (Prod.map f id)) := by
  simp [repeated, List.map_flatMap, List.flatMap_map]

theorem map_spread (f : α → γ) (counted : List (α × Nat)) :
    (spread counted).map f = spread (counted.map (Prod.map f id)) := by
  cases counted with
  | nil => rfl
  | cons first others => exact congrArg (List.cons _) (map_repeated f others)

theorem repeated_of_forall_eq_one {counted : List (α × Nat)} (h : ∀ p ∈ counted, p.2 = 1) :
    repeated counted = counted.map Prod.fst := by
  induction counted with
  | nil => rfl
  | cons p counted ih =>
    obtain ⟨hp, hrest⟩ := List.forall_mem_cons.1 h
    rw [repeated_cons, hp, ih hrest]
    rfl

theorem length_le_length_repeated {counted : List (α × Nat)} (h : ∀ p ∈ counted, p.2 ≠ 0) :
    counted.length ≤ (repeated counted).length := by
  induction counted with
  | nil => exact Nat.le_refl 0
  | cons p counted ih =>
    obtain ⟨hp, hrest⟩ := List.forall_mem_cons.1 h
    have ih := ih hrest
    rw [repeated_cons, List.length_cons, List.length_append, List.length_replicate]
    omega

theorem forall_eq_one_of_length {counted : List (α × Nat)} (h : ∀ p ∈ counted, p.2 ≠ 0)
    (hlength : (repeated counted).length = counted.length) : ∀ p ∈ counted, p.2 = 1 := by
  induction counted with
  | nil => exact fun _ hp => absurd hp List.not_mem_nil
  | cons p counted ih =>
    obtain ⟨hp, hrest⟩ := List.forall_mem_cons.1 h
    have hle := length_le_length_repeated hrest
    rw [repeated_cons, List.length_cons, List.length_append, List.length_replicate] at hlength
    exact List.forall_mem_cons.2 ⟨by omega, ih hrest (by omega)⟩

variable [DecidableEq α]

theorem filter_replicate_append_repeated {counted : List (α × Nat)} {a : α} (times : Nat)
    (h : a ∉ counted.map Prod.fst) :
    (List.replicate times a ++ repeated counted).filter (fun b => !b == a) = repeated counted := by
  have hothers : (repeated counted).filter (fun b => !b == a) = repeated counted := by
    rw [List.filter_eq_self]
    intro b hb
    have hne : b ≠ a := fun hsame => h (hsame ▸ mem_of_mem_repeated hb)
    simpa using hne
  rw [List.filter_append, hothers]
  simp

/-- Different elements are left once each. -/
theorem eraseDups_repeated {counted : List (α × Nat)} (h : ∀ p ∈ counted, p.2 ≠ 0)
    (hnodup : (counted.map Prod.fst).Nodup) : (repeated counted).eraseDups = counted.map Prod.fst := by
  induction counted with
  | nil => rfl
  | cons p counted ih =>
    obtain ⟨hp, hrest⟩ := List.forall_mem_cons.1 h
    rw [List.map_cons, List.nodup_cons] at hnodup
    obtain ⟨times, htimes⟩ := Nat.exists_eq_succ_of_ne_zero hp
    rw [repeated_cons, htimes, List.replicate_succ, List.cons_append, List.eraseDups_cons,
      filter_replicate_append_repeated times hnodup.1, ih hrest hnodup.2, List.map_cons]

theorem headOnce_repeated {counted : List (α × Nat)} (h : ∀ p ∈ counted, p.2 ≠ 0)
    (hnodup : (counted.map Prod.fst).Nodup) : headOnce (repeated counted) = spread counted := by
  cases counted with
  | nil => rfl
  | cons p counted =>
    rw [List.map_cons, List.nodup_cons] at hnodup
    obtain ⟨times, htimes⟩ := Nat.exists_eq_succ_of_ne_zero (h p (List.mem_cons_self ..))
    rw [repeated_cons, htimes, List.replicate_succ, List.cons_append, headOnce,
      filter_replicate_append_repeated times hnodup.1, spread]

end

section
variable {planned : List (PlannedEntry β)}

/-- The entries that claim a key, in the order declared, and how often each of them does. -/
def plannedClaimants (planned : List (PlannedEntry β)) (key : Key) : List (String × Nat) :=
  (planned.map (fun e => (e.source, e.claimedKeys.count key))).filter (fun p => p.2 ≠ 0)

/-- The same by their positions. -/
def claimantPositions (planned : List (PlannedEntry β)) (key : Key) : List (Position planned × Nat) :=
  ((List.finRange planned.length).map
    (fun i => (i, (planned.get i).claimedKeys.count key))).filter (fun p => p.2 ≠ 0)

theorem map_claimantPositions (planned : List (PlannedEntry β)) (key : Key) :
    (claimantPositions planned key).map (Prod.map (fun i => (planned.get i).source) id) =
      plannedClaimants planned key := by
  have hentries : (List.finRange planned.length).map planned.get = planned := List.map_get_finRange _
  have hcounted : ((List.finRange planned.length).map
      (fun i => (i, (planned.get i).claimedKeys.count key))).map
        (Prod.map (fun i => (planned.get i).source) id) =
      planned.map (fun e => (e.source, e.claimedKeys.count key)) := by
    conv_rhs => rw [← hentries]
    rw [List.map_map, List.map_map]
    rfl
  rw [plannedClaimants, ← hcounted, List.filter_map]
  rfl

theorem nodup_claimantPositions (planned : List (PlannedEntry β)) (key : Key) :
    ((claimantPositions planned key).map Prod.fst).Nodup := by
  have hpositions : (((List.finRange planned.length).map
      (fun i => (i, (planned.get i).claimedKeys.count key))).map Prod.fst).Nodup := by
    simpa [Function.comp_def] using List.nodup_finRange planned.length
  exact hpositions.sublist (List.filter_sublist.map Prod.fst)

theorem ne_zero_of_mem_claimantPositions {key : Key} :
    ∀ p ∈ claimantPositions planned key, p.2 ≠ 0 := by
  intro p hp
  simpa using (List.mem_filter.1 hp).2

theorem claimantsOf_claimSequence (planned : List (PlannedEntry β)) (key : Key) :
    claimantsOf (claimSequence planned) key = repeated (claimantPositions planned key) := by
  have hentry : ∀ (i : Position planned) (keys : List Key),
      claimantsOf (keys.map (fun key => (key, i))) key = List.replicate (keys.count key) i := by
    intro i keys
    simp only [claimantsOf, List.filter_map, List.map_map, Function.comp_def, List.map_const',
      List.count_eq_length_filter]
    rfl
  have hentries : claimantsOf (claimSequence planned) key = (List.finRange planned.length).flatMap
      (fun i => claimantsOf ((planned.get i).claimedKeys.map (fun key => (key, i))) key) := by
    simp only [claimantsOf, claimSequence, claimsAt, List.filter_flatMap, List.map_flatMap]
  rw [hentries, claimantPositions, repeated_filter, repeated, List.flatMap_map]
  simp only [hentry]

end

/-! ### The record of a table -/

/-- What is recorded over a key with these claimants, in the order declared and with the number of their
claims. -/
def CollisionPolicy.recordOver (policy : CollisionPolicy) (key : Key)
    (claimants : List (String × Nat)) : List Collision :=
  match policy with
  | .lastDeclaredWins => takeovers key (claimants.map Prod.fst)
  | _ => refusals key (spread claimants)

theorem CollisionPolicy.snd_account_claimSequence (policy : CollisionPolicy)
    (planned : List (PlannedEntry β)) (key : Key) :
    (policy.account key (claimantsOf (claimSequence planned) key)).2 =
      policy.recordOver key (plannedClaimants planned key) := by
  have hcounted := @ne_zero_of_mem_claimantPositions _ planned key
  have hnodup := nodup_claimantPositions planned key
  have hlast : sourcesAt planned ((claimantPositions planned key).map Prod.fst) =
      (plannedClaimants planned key).map Prod.fst := by
    rw [← map_claimantPositions, List.map_map, sourcesAt, List.map_map]
    rfl
  have hfirst : sourcesAt planned (spread (claimantPositions planned key)) =
      spread (plannedClaimants planned key) := by
    rw [← map_claimantPositions, ← map_spread, sourcesAt]
  rw [claimantsOf_claimSequence]
  cases policy with
  | lastDeclaredWins => simp only [account, recordOver, eraseDups_repeated hcounted hnodup, hlast]
  | firstDeclaredWins => simp only [account, recordOver, headOnce_repeated hcounted hnodup, hfirst]
  | reject => simp only [account, recordOver, headOnce_repeated hcounted hnodup, hfirst]

/-- The record of a table is what its policy makes of the claimants. -/
theorem collisionsOver_of_buildTable {classifier : Classifier β} {config : EngineConfig}
    {planned : List (PlannedEntry β)} {t : DispatchTable β}
    (h : buildTable classifier config planned = .ok t) (key : Key) :
    t.collisionsOver key =
      config.collisionPolicy.recordOver key (plannedClaimants planned key) := by
  obtain ⟨claims, hclaims, ht⟩ := buildTable_eq_ok h
  have haccount := (Claims.accounted_all hclaims).account_eq key
  rw [← CollisionPolicy.snd_account_claimSequence, haccount, DispatchTable.collisionsOver,
    ht.collisions_eq]
  rfl

/-- The keys that the signature of an entry expands to. -/
def Entry.keys (source : String) (entry : Entry β) : List Key :=
  match Signature.read (entry.signatureText source) with
  | .ok signature => signature.expand
  | .error _ => []

/-- The entries that claim a key, in the order declared, and how often each of them does. -/
def Description.claimants (d : Description β) (key : Key) : List (String × Nat) :=
  (d.toList.map (fun (source, entry) => (source, (entry.keys source).count key))).filter
    (fun p => p.2 ≠ 0)

theorem Description.PlannedAs.claimants_eq {d : Description β} {planned : List (PlannedEntry β)}
    (h : d.PlannedAs planned) (key : Key) : d.claimants key = plannedClaimants planned key := by
  rw [claimants, plannedClaimants]
  refine congrArg _ (forall₂_iff_map_eq.1 (h.imp ?_))
  rintro ⟨source, entry⟩ e hstands
  simp only [Entry.keys, hstands.read, hstands.claimedKeys_eq, hstands.source_eq]

/-- A compiled table records over a key what the policy makes of the entries that claim it. -/
theorem collisionsOver_of_compile {engine : Engine β} {d : Description β} {r : Resolver β}
    (hs : engine.stages = Stage.standard) (h : engine.compile d = .ok r) (key : Key) :
    r.table.collisionsOver key =
      engine.config.collisionPolicy.recordOver key (d.claimants key) := by
  obtain ⟨_, planned, hplan, hbuild⟩ := Engine.compile_eq_ok_iff.1 h
  rw [collisionsOver_of_buildTable hbuild, (Engine.plan_standard hs hplan).claimants_eq]

theorem length_takeovers (key : Key) (claimants : List String) :
    (takeovers key claimants).length = claimants.length - 1 := by
  simp [takeovers]

theorem length_refusals (key : Key) (claimants : List String) :
    (refusals key claimants).length = claimants.length - 1 := by
  cases claimants <;> simp [refusals]

theorem takeovers_eq_nil_iff {key : Key} {claimants : List String} :
    takeovers key claimants = [] ↔ claimants.length ≤ 1 := by
  rw [← List.length_eq_zero_iff, length_takeovers]
  omega

theorem refusals_eq_nil_iff {key : Key} {claimants : List String} :
    refusals key claimants = [] ↔ claimants.length ≤ 1 := by
  rw [← List.length_eq_zero_iff, length_refusals]
  omega

section
variable {α : Type} {counted : List (α × Nat)}

theorem spread_of_forall_eq_one (h : ∀ p ∈ counted.tail, p.2 = 1) :
    spread counted = counted.map Prod.fst := by
  cases counted with
  | nil => rfl
  | cons first others => exact congrArg (List.cons _) (repeated_of_forall_eq_one h)

theorem length_spread_eq_iff (h : ∀ p ∈ counted, p.2 ≠ 0) :
    (spread counted).length = counted.length ↔ ∀ p ∈ counted.tail, p.2 = 1 := by
  constructor
  · intro hlength
    cases counted with
    | nil => exact fun _ hp => absurd hp List.not_mem_nil
    | cons first others =>
      exact forall_eq_one_of_length (List.forall_mem_cons.1 h).2 (Nat.succ.inj hlength)
  · intro hone
    rw [spread_of_forall_eq_one hone, List.length_map]

theorem length_le_length_spread (h : ∀ p ∈ counted, p.2 ≠ 0) :
    counted.length ≤ (spread counted).length := by
  cases counted with
  | nil => exact Nat.le_refl 0
  | cons first others =>
    exact Nat.succ_le_succ (length_le_length_repeated (List.forall_mem_cons.1 h).2)

theorem length_spread_le_one_iff (h : ∀ p ∈ counted, p.2 ≠ 0) :
    (spread counted).length ≤ 1 ↔ counted.length ≤ 1 := by
  constructor
  · intro hone
    exact Nat.le_trans (length_le_length_spread h) hone
  · intro hone
    match counted with
    | [] => exact Nat.zero_le 1
    | [first] => exact Nat.le_refl 1
    | first :: second :: others => simp at hone

end

theorem Description.ne_zero_of_mem_claimants {d : Description β} {key : Key} :
    ∀ p ∈ d.claimants key, p.2 ≠ 0 := by
  intro p hp
  simpa using (List.mem_filter.1 hp).2

/-- COLLISIONS: where the last declaration wins, every claimant of a key takes it from the one before,
which is recorded once. Where the first one wins, it keeps the key from every other claimant, which is
recorded once for each claim of that entry; so the record is without repetitions, and as long as where
the last declaration wins, exactly if no entry but the first claims the key more than once. -/
theorem compile_collisions {last first : Engine β} (hlast : last.stages = Stage.standard)
    (hfirst : first.stages = Stage.standard)
    (htakes : last.config.collisionPolicy = .lastDeclaredWins)
    (hkeeps : first.config.collisionPolicy = .firstDeclaredWins) (d : Description β) (key : Key) :
    (∀ r, last.compile d = .ok r →
      r.table.collisionsOver key = takeovers key ((d.claimants key).map Prod.fst)) ∧
    (∀ r, first.compile d = .ok r →
      r.table.collisionsOver key = refusals key (spread (d.claimants key)) ∧
      (r.table.collisionsOver key = refusals key ((d.claimants key).map Prod.fst) ↔
        ∀ p ∈ (d.claimants key).tail, p.2 = 1)) ∧
    ∀ r r', last.compile d = .ok r → first.compile d = .ok r' →
      (r.table.collisionsOver key = [] ↔ r'.table.collisionsOver key = []) ∧
      ((r.table.collisionsOver key).length = (r'.table.collisionsOver key).length ↔
        ∀ p ∈ (d.claimants key).tail, p.2 = 1) := by
  have hcounted := @Description.ne_zero_of_mem_claimants _ d key
  have htaken : ∀ r, last.compile d = .ok r →
      r.table.collisionsOver key = takeovers key ((d.claimants key).map Prod.fst) := by
    intro r hr
    rw [collisionsOver_of_compile hlast hr, htakes]
    rfl
  have hrefused : ∀ r, first.compile d = .ok r →
      r.table.collisionsOver key = refusals key (spread (d.claimants key)) := by
    intro r hr
    rw [collisionsOver_of_compile hfirst hr, hkeeps]
    rfl
  -- both records are one shorter than their lists of claimants
  have hlength : (spread (d.claimants key)).length - 1 = (d.claimants key).length - 1 ↔
      ∀ p ∈ (d.claimants key).tail, p.2 = 1 := by
    rw [← length_spread_eq_iff hcounted]
    cases hclaimants : d.claimants key with
    | nil => simp [spread]
    | cons p others => simp [spread]
  refine ⟨htaken, fun r hr => ⟨hrefused r hr, ?_⟩, fun r r' hr hr' => ⟨?_, ?_⟩⟩
  · rw [hrefused r hr]
    constructor
    · intro hsame
      rw [← hlength, ← length_refusals key, hsame, length_refusals, List.length_map]
    · intro hone
      rw [spread_of_forall_eq_one hone]
  · rw [htaken r hr, hrefused r' hr', takeovers_eq_nil_iff, refusals_eq_nil_iff, List.length_map,
      length_spread_le_one_iff hcounted]
  · rw [htaken r hr, hrefused r' hr', length_takeovers, length_refusals, List.length_map,
      ← hlength]
    exact eq_comm

/-- An entry, and another one that claims its key twice. -/
def insistent : Description Unit :=
  (Description.empty.insert "[array]" (.method ⟨"once", 0, [], ()⟩)).insert
    "[array] []?" (.method ⟨"twice", 1, [], ()⟩)

theorem compile_collisions_insistent :
    insistent.claimants ⟨["array"]⟩ = [("[array]", 1), ("[array] []?", 2)] ∧ ∃ r r',
      (Engine.settling .lastDeclaredWins).compile insistent = .ok r ∧
      (Engine.settling .firstDeclaredWins).compile insistent = .ok r' ∧
      r.table.collisionsOver ⟨["array"]⟩ = takeovers ⟨["array"]⟩ ["[array]", "[array] []?"] ∧
      r'.table.collisionsOver ⟨["array"]⟩ ≠ refusals ⟨["array"]⟩ ["[array]", "[array] []?"] ∧
      (r.table.collisionsOver ⟨["array"]⟩).length ≠ (r'.table.collisionsOver ⟨["array"]⟩).length := by
  have hclaimants : insistent.claimants ⟨["array"]⟩ = [("[array]", 1), ("[array] []?", 2)] := by
    decide +kernel
  obtain ⟨r, hr, _⟩ : ∃ r, (Engine.settling .lastDeclaredWins).compile insistent = .ok r ∧
      r.table.keys.keys = [⟨["array"]⟩] := exists_ok_of_toOption (by decide +kernel)
  obtain ⟨r', hr', _⟩ : ∃ r, (Engine.settling .firstDeclaredWins).compile insistent = .ok r ∧
      r.table.keys.keys = [⟨["array"]⟩] := exists_ok_of_toOption (by decide +kernel)
  obtain ⟨htaken, hrefused, hboth⟩ := @compile_collisions _ (Engine.settling .lastDeclaredWins)
    (Engine.settling .firstDeclaredWins) rfl rfl rfl rfl insistent ⟨["array"]⟩
  rw [hclaimants] at htaken hrefused hboth
  have htwice : ¬∀ p ∈ [("[array]", 1), ("[array] []?", 2)].tail, p.2 = 1 := by decide
  exact ⟨hclaimants, r, r', hr, hr', htaken r hr, fun hsame => htwice ((hrefused r' hr').2.1 hsame),
    fun hsame => htwice ((hboth r r' hr hr').2.1 hsame)⟩

/-- A key that the first declaration keeps from one other entry may be recorded twice. -/
theorem compile_repeats_collision :
    (insistent.claimants ⟨["array"]⟩).map Prod.fst = ["[array]", "[array] []?"] ∧
    (∃ r, (Engine.settling .lastDeclaredWins).compile insistent = .ok r ∧
      r.table.collisions = [⟨⟨["array"]⟩, "[array] []?", "[array]"⟩]) ∧
    ∃ r, (Engine.settling .firstDeclaredWins).compile insistent = .ok r ∧
      r.table.collisions = [⟨⟨["array"]⟩, "[array]", "[array] []?"⟩,
        ⟨⟨["array"]⟩, "[array]", "[array] []?"⟩] := by
  refine ⟨by decide +kernel, ?_, ?_⟩
  · exact exists_ok_of_toOption (by decide +kernel)
  · exact exists_ok_of_toOption (by decide +kernel)

end ShapeDispatch
