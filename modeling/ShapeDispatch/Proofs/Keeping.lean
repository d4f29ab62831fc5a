import ShapeDispatch.Proofs.Planning

/-!
What stages keep. The built-in stages take each entry by itself and never touch its source, its target
and its defaults, so whatever is said of these alone holds of the planned entries as it holds of the
declared ones (`Engine.forall_plan`). A stage of the author's own has to keep it by itself
(`Stage.Preserves`).
-/

namespace ShapeDispatch
variable {β : Type}

namespace Stage
variable {stage : Stage β} {stages : List (Stage β)} {entries entries' : List (PlannedEntry β)}
  {P : PlannedEntry β → Prop}

/-- A stage of this library. -/
def BuiltIn : Stage β → Prop
  | custom _ _ => False
  | _ => True

/-- A built-in stage that succeeds has taken each entry by itself. -/
theorem BuiltIn.run_eq_ok (hstage : stage.BuiltIn) (h : stage.run entries = .ok entries') :
    entries' = entries.map stage.onEntry := by
  cases stage with
  | bindNames => exact (Except.ok.inj h).symm
  | expandOptionalGroups => exact (Except.ok.inj h).symm
  | expandAlternatives => exact (Except.ok.inj h).symm
  | tokenSynonyms synonyms =>
    simp only [run] at h
    split at h
    · cases h
    · exact (Except.ok.inj h).symm
  | custom name change => exact hstage.elim

theorem source_onEntry (stage : Stage β) (e : PlannedEntry β) :
    (stage.onEntry e).source = e.source := by
  cases stage <;> rfl

theorem target_onEntry (stage : Stage β) (e : PlannedEntry β) :
    (stage.onEntry e).target = e.target := by
  cases stage <;> rfl

theorem defaults_onEntry (stage : Stage β) (e : PlannedEntry β) :
    (stage.onEntry e).defaults = e.defaults := by
  cases stage <;> rfl

/-- What holds of the entries before the stage holds of those behind it. -/
def Preserves (stage : Stage β) (P : PlannedEntry β → Prop) : Prop :=
  ∀ entries entries', (∀ e ∈ entries, P e) → stage.run entries = .ok entries' → ∀ e ∈ entries', P e

theorem BuiltIn.preserves (hstage : stage.BuiltIn) (hP : ∀ e, P e → P (stage.onEntry e)) :
    stage.Preserves P := by
  intro entries entries' h hrun e he
  rw [hstage.run_eq_ok hrun] at he
  obtain ⟨before, hbefore, rfl⟩ := List.mem_map.1 he
  exact hP before (h before hbefore)

theorem forall_runAll (hstages : ∀ stage ∈ stages, stage.Preserves P) (h : ∀ e ∈ entries, P e)
    (hrun : runAll stages entries = .ok entries') : ∀ e ∈ entries', P e := by
  refine foldlM_ok_inv (fun _ now => ∀ e ∈ now, P e) [] h ?_ hrun
  intro seen stage rest now next hsplit hnow hstep
  have hmem : stage ∈ stages := by
    rw [List.nil_append] at hsplit
    simp [hsplit]
  exact hstages stage hmem now next hnow hstep

end Stage

namespace Engine

/-- What is said of sources, targets and defaults, and is kept by the stages of the author's own, holds
of the planned entries if it holds of the declared ones. -/
theorem forall_plan {engine : Engine β} {d : Description β} {planned : List (PlannedEntry β)}
    {P : String → Target β → List (Value β) → Prop}
    (hcustom : ∀ name change, .custom name change ∈ engine.stages →
      (Stage.custom name change).Preserves (fun e => P e.source e.target e.defaults))
    (hd : ∀ declared ∈ d.toList, P declared.1 declared.2.target declared.2.defaults)
    (h : engine.plan d = .ok planned) : ∀ e ∈ planned, P e.source e.target e.defaults := by
  obtain ⟨parsed, hparsed, hrun⟩ := bind_eq_ok.1 h
  refine Stage.forall_runAll ?_ ?_ hrun
  · intro stage hstage
    cases stage with
    | custom name change => exact hcustom name change hstage
    | _ =>
      refine Stage.BuiltIn.preserves trivial (fun e he => ?_)
      rwa [Stage.source_onEntry, Stage.target_onEntry, Stage.defaults_onEntry]
  · intro e he
    obtain ⟨declared, hdeclared, order, signature, _, rfl⟩ :=
      exists_mem_of_forall₂ (Description.plan_eq_ok hparsed) he
    exact hd declared hdeclared

end Engine

end ShapeDispatch
