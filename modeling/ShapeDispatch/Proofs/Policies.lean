import ShapeDispatch.Proofs.Building

/-!
What the collision policies have in common. Claims go the same way under every policy until an entry
claims the key of another one (`Claims.runsAlike_all`). So if a policy had no collision to settle,
every policy makes the very same table; if it had one, rejecting collisions fails with the first of
those it settled (`buildTable_policies`).
-/

namespace ShapeDispatch
variable {β : Type} {planned : List (PlannedEntry β)}

/-- The error that rejects a collision which the policy settles: it names the owner so far before the
new claimant. -/
def CollisionPolicy.rejection (policy : CollisionPolicy) (c : Collision) : CompileError :=
  match policy with
  | .firstDeclaredWins => .collision c.key c.kept c.dropped
  | _ => .collision c.key c.dropped c.kept

namespace Claims

/-- A run that settles no collision under the policy is the same under every policy, and a run that
settles some is rejected for the first of them. -/
def RunsAlike (policy : CollisionPolicy)
    (run : CollisionPolicy → Claims planned → Except CompileError (Claims planned)) : Prop :=
  ∀ {c c'}, run policy c = .ok c' →
    (c'.collisions = c.collisions ∧ ∀ other, run other c = .ok c') ∨
    ∃ first rest, c'.collisions = c.collisions ++ first :: rest ∧
      run .reject c = .error (policy.rejection first)

section
variable {policy : CollisionPolicy}

theorem runsAlike_claim (key : Key) (claimant : Position planned) :
    RunsAlike policy (fun other c => c.claim other key claimant) := by
  intro c c' h
  have hanswer := answer_claim policy c key claimant
  rw [show c.claim policy key claimant = .ok c' from h] at hanswer
  cases hanswer with
  | free hnone => exact .inl ⟨rfl, fun other => by simp [claim, hnone]⟩
  | again hown => exact .inl ⟨rfl, fun other => by simp [claim, hown]⟩
  | taken hpolicy howner hne =>
    subst hpolicy
    exact .inr ⟨_, [], rfl, by simp [claim, howner, hne, CollisionPolicy.rejection]⟩
  | kept hpolicy howner hne =>
    subst hpolicy
    exact .inr ⟨_, [], rfl, by simp [claim, howner, hne, CollisionPolicy.rejection]⟩

theorem runsAlike_claimShape (claimant : Position planned) (shape : Shape) :
    RunsAlike policy (fun other c => c.claimShape other claimant shape) := by
  intro c c' h
  obtain ⟨key, hkey, hclaim⟩ := claimShape_eq_ok h
  simpa only [claimShape, hkey] using runsAlike_claim key claimant hclaim

/-- Runs one after the other are alike if each of them is: the first collision of all is the first one
of the earliest run that has any. -/
theorem RunsAlike.foldlM {α : Type}
    {step : CollisionPolicy → Claims planned → α → Except CompileError (Claims planned)}
    (hstep : ∀ a, RunsAlike policy (fun other c => step other c a)) :
    ∀ l : List α, RunsAlike policy (fun other c => l.foldlM (step other) c)
  | [], c, c', h => by
    cases h
    exact .inl ⟨rfl, fun _ => rfl⟩
  | a :: l, c, c', h => by
    have hsteps : ∀ other, (a :: l).foldlM (step other) c =
        step other c a >>= fun s => l.foldlM (step other) s := fun other => List.foldlM_cons
    obtain ⟨s, hs, hrest⟩ := bind_eq_ok.1 ((hsteps policy).symm.trans h)
    obtain ⟨hnone, hsame⟩ | ⟨first, more, hmore, hrejected⟩ := hstep a hs
    · obtain ⟨hnone', hsame'⟩ | ⟨first, more, hmore, hrejected⟩ := RunsAlike.foldlM hstep l hrest
      · refine .inl ⟨hnone'.trans hnone, fun other => ?_⟩
        exact (hsteps other).trans (bind_eq_ok.2 ⟨s, hsame other, hsame' other⟩)
      · refine .inr ⟨first, more, by rw [hmore, hnone], ?_⟩
        exact (hsteps .reject).trans (bind_eq_error.2 (.inr ⟨s, hsame .reject, hrejected⟩))
    · -- rejected at the first step, whatever the others add to its collisions
      obtain ⟨later, hlater⟩ : ∃ later, c'.collisions = s.collisions ++ later := by
        obtain ⟨hnone', _⟩ | ⟨first', more', hmore', _⟩ := RunsAlike.foldlM hstep l hrest
        · exact ⟨[], by rw [hnone', List.append_nil]⟩
        · exact ⟨first' :: more', hmore'⟩
      refine .inr ⟨first, more ++ later, by rw [hlater, hmore]; simp, ?_⟩
      exact (hsteps .reject).trans (bind_eq_error.2 (.inl hrejected))

theorem runsAlike_claimEntry (claimant : Position planned) :
    RunsAlike policy (fun other c => c.claimEntry other claimant) :=
  RunsAlike.foldlM (runsAlike_claimShape claimant) _

/-- All claims are settled in the same way by every policy if one of them finds no collision, and are
rejected for the first collision otherwise. -/
theorem runsAlike_all {c : Claims planned} (h : all policy planned = .ok c) :
    (c.collisions = [] ∧ ∀ other, all other planned = .ok c) ∨
    ∃ first rest, c.collisions = first :: rest ∧
      all .reject planned = .error (policy.rejection first) :=
  RunsAlike.foldlM runsAlike_claimEntry (List.finRange planned.length) h

end

end Claims

section
variable {classifier : Classifier β} {limit : Nat} {policy : CollisionPolicy} {t : DispatchTable β}

/-- A table without collisions is the table under every policy. -/
theorem buildTable_of_collisions_nil
    (h : buildTable classifier ⟨limit, policy⟩ planned = .ok t) (hnone : t.collisions = [])
    (other : CollisionPolicy) : buildTable classifier ⟨limit, other⟩ planned = .ok t := by
  obtain ⟨c, hc, ht⟩ := buildTable_eq_ok h
  rw [ht.collisions_eq] at hnone
  obtain ⟨_, hsame⟩ | ⟨first, rest, hsome, _⟩ := Claims.runsAlike_all hc
  · rw [← h, buildTable, buildTable, hsame other, hc]
  · rw [hnone] at hsome
    cases hsome

/-- Where collisions are rejected, the first one that a policy settles is the error. -/
theorem buildTable_reject_of_collisions_cons
    (h : buildTable classifier ⟨limit, policy⟩ planned = .ok t) {first : Collision}
    {rest : List Collision} (hsome : t.collisions = first :: rest) :
    buildTable classifier ⟨limit, .reject⟩ planned = .error (policy.rejection first) := by
  obtain ⟨c, hc, ht⟩ := buildTable_eq_ok h
  rw [ht.collisions_eq] at hsome
  obtain ⟨hnone, _⟩ | ⟨first', rest', hsome', hrejected⟩ := Claims.runsAlike_all hc
  · rw [hnone] at hsome
    cases hsome
  · obtain ⟨rfl, rfl⟩ := List.cons.inj (hsome.symm.trans hsome')
    exact bind_eq_error.2 (.inl hrejected)

end

/-- POLICIES: a table that is built without a collision, whoever was to win one, is the table under every
policy; if there was a collision, rejecting collisions fails with the first one that was settled, and
names the earlier of the two entries first. -/
theorem buildTable_policies (classifier : Classifier β) (limit : Nat)
    (planned : List (PlannedEntry β)) (t : DispatchTable β) :
    (buildTable classifier ⟨limit, .lastDeclaredWins⟩ planned = .ok t →
      (t.collisions = [] → ∀ policy, buildTable classifier ⟨limit, policy⟩ planned = .ok t) ∧
      ∀ first rest, t.collisions = first :: rest →
        buildTable classifier ⟨limit, .reject⟩ planned =
          .error (.collision first.key first.dropped first.kept)) ∧
    (buildTable classifier ⟨limit, .firstDeclaredWins⟩ planned = .ok t →
      (t.collisions = [] → ∀ policy, buildTable classifier ⟨limit, policy⟩ planned = .ok t) ∧
      ∀ first rest, t.collisions = first :: rest →
        buildTable classifier ⟨limit, .reject⟩ planned =
          .error (.collision first.key first.kept first.dropped)) := by
  constructor
  · intro h
    exact ⟨buildTable_of_collisions_nil h, fun _ _ => buildTable_reject_of_collisions_cons h⟩
  · intro h
    exact ⟨buildTable_of_collisions_nil h, fun _ _ => buildTable_reject_of_collisions_cons h⟩

/-- An entry that claims its only key twice. -/
def uncontested : Description Unit :=
  Description.empty.insert "[array] []?" (.method ⟨"twice", 0, [], ()⟩)

/-- The same, and an entry that claims the key as well. -/
def contested : Description Unit :=
  uncontested.insert "[string|array]" (.method ⟨"either", 1, [], ()⟩)

theorem buildTable_policies_contested :
    (∃ planned t, Engine.standard.plan contested = .ok planned ∧
      buildTable .standard ⟨4, .lastDeclaredWins⟩ planned = .ok t ∧
      t.collisions = [⟨⟨["array"]⟩, "[string|array]", "[array] []?"⟩] ∧
      buildTable .standard ⟨4, .reject⟩ planned =
        .error (.collision ⟨["array"]⟩ "[array] []?" "[string|array]")) ∧
    ∃ planned t, Engine.standard.plan uncontested = .ok planned ∧
      buildTable .standard ⟨4, .firstDeclaredWins⟩ planned = .ok t ∧ t.collisions = [] ∧
      buildTable .standard ⟨4, .reject⟩ planned = .ok t := by
  constructor
  · obtain ⟨planned, hplan, h⟩ : ∃ planned, Engine.standard.plan contested = .ok planned ∧
        (buildTable .standard ⟨4, .lastDeclaredWins⟩ planned).toOption.map
          DispatchTable.collisions = some [⟨⟨["array"]⟩, "[string|array]", "[array] []?"⟩] :=
      exists_ok_of_toOption (by decide +kernel)
    obtain ⟨t, ht, hcollisions⟩ := exists_ok_of_toOption h
    exact ⟨planned, t, hplan, ht, hcollisions,
      ((buildTable_policies .standard 4 planned t).1 ht).2 _ _ hcollisions⟩
  · obtain ⟨planned, hplan, h⟩ : ∃ planned, Engine.standard.plan uncontested = .ok planned ∧
        (buildTable .standard ⟨4, .firstDeclaredWins⟩ planned).toOption.map
          DispatchTable.collisions = some [] := exists_ok_of_toOption (by decide +kernel)
    obtain ⟨t, ht, hcollisions⟩ := exists_ok_of_toOption h
    exact ⟨planned, t, hplan, ht, hcollisions,
      ((buildTable_policies .standard 4 planned t).2 ht).1 hcollisions .reject⟩

end ShapeDispatch
