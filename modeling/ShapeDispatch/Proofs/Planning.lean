import ShapeDispatch.Engine
import ShapeDispatch.Proofs.Expansion
import ShapeDispatch.Proofs.OrderedMap

/-!
What planning makes of a description. Stages of the standard kinds take each entry by itself
(`Stage.runAll_eq_map`). With the standard stages every declared entry becomes one planned entry, in
the order declared, whose shapes are the keys that its signature expands to (`Engine.plan_standard`).
-/

namespace ShapeDispatch
variable {β : Type}

/-- What the standard stages make of an entry that was declared under `source`. -/
structure PlannedEntry.StandsFor (e : PlannedEntry β) (source : String) (entry : Entry β) :
    Prop where
  source_eq : e.source = source
  read : Signature.read (entry.signatureText source) = .ok e.signature
  target_eq : e.target = entry.target
  defaults_eq : e.defaults = entry.defaults
  names_eq : e.paramNames = e.signature.paramNames
  shapes_eq : e.shapes = e.signature.expand.map Shape.ofKey

theorem Entry.plan_eq_ok {order : Nat} {source : String} {entry : Entry β} {e : PlannedEntry β}
    (h : entry.plan order source = .ok e) :
    ∃ signature, Signature.read (entry.signatureText source) = .ok signature ∧
      e = .fresh order source signature entry.target entry.defaults := by
  unfold Entry.plan at h
  split at h
  · cases h
  · next signature hread =>
    split at h
    · cases h
    · exact ⟨signature, hread, (Except.ok.inj h).symm⟩

/-- An entry can be planned exactly if its signature reads and has a position for every default. -/
theorem Entry.exists_plan_iff {order : Nat} {source : String} {entry : Entry β} :
    (∃ e, entry.plan order source = .ok e) ↔
      ∃ s, Signature.read (entry.signatureText source) = .ok s ∧
        entry.defaults.length ≤ s.length := by
  unfold Entry.plan
  cases Signature.read (entry.signatureText source) with
  | error error => simp
  | ok s =>
    by_cases h : s.length < entry.defaults.length
    · simp [h]
    · simp [h, Nat.not_lt.1 h]

namespace Stage

/-- What a stage makes of one entry, if it takes each entry by itself. -/
def onEntry (stage : Stage β) (e : PlannedEntry β) : PlannedEntry β :=
  match stage with
  | bindNames => e.bindNames
  | expandOptionalGroups => e.expandOptionalGroups
  | expandAlternatives => e.expandAlternatives
  | tokenSynonyms synonyms => synonyms.replaceEntry e
  | custom _ _ => e

/-- What stages make of one entry, in order. -/
def onEntryAll (stages : List (Stage β)) (e : PlannedEntry β) : PlannedEntry β :=
  stages.foldl (fun e stage => stage.onEntry e) e

theorem mem_standard_iff {stage : Stage β} : stage ∈ standard ↔
    stage = bindNames ∨ stage = expandOptionalGroups ∨ stage = expandAlternatives := by
  simp [standard]

theorem run_eq_map {stage : Stage β} (h : stage ∈ standard) (entries : List (PlannedEntry β)) :
    stage.run entries = .ok (entries.map stage.onEntry) := by
  obtain rfl | rfl | rfl := mem_standard_iff.1 h <;> rfl

/-- Stages of the standard kinds never fail and take each entry by itself. -/
theorem runAll_eq_map : ∀ {stages : List (Stage β)}, (∀ stage ∈ stages, stage ∈ standard) →
    ∀ entries, runAll stages entries = .ok (entries.map (onEntryAll stages))
  | [], _, entries => by
    have hnone : onEntryAll ([] : List (Stage β)) = id := rfl
    rw [hnone, List.map_id]
    rfl
  | stage :: stages, h, entries => by
    obtain ⟨hstage, hstages⟩ := List.forall_mem_cons.1 h
    have hrest := runAll_eq_map hstages (entries.map stage.onEntry)
    rw [List.map_map] at hrest
    rw [runAll, List.foldlM_cons, run_eq_map hstage]
    exact hrest

end Stage

theorem PlannedEntry.standsFor_fresh {order : Nat} {source : String} {entry : Entry β}
    {signature : Signature} (h : Signature.read (entry.signatureText source) = .ok signature) :
    ((fresh order source signature entry.target entry.defaults).bindNames.expandOptionalGroups
      |>.expandAlternatives).StandsFor source entry where
  source_eq := rfl
  read := h
  target_eq := rfl
  defaults_eq := rfl
  names_eq := rfl
  shapes_eq := by
    rw [Signature.expand, List.map_flatMap]
    rfl

/-- The planned entries stand for the declared ones, in the order declared. -/
def Description.PlannedAs (d : Description β) (planned : List (PlannedEntry β)) : Prop :=
  List.Forall₂ (fun declared e => e.StandsFor declared.1 declared.2) d.toList planned

/-- Each declared entry becomes one planned entry, which starts out as its signature says. -/
theorem Description.plan_eq_ok {d : Description β} {parsed : List (PlannedEntry β)}
    (h : d.plan = .ok parsed) : List.Forall₂ (fun declared e => ∃ order signature,
      Signature.read (declared.2.signatureText declared.1) = .ok signature ∧
        e = .fresh order declared.1 signature declared.2.target declared.2.defaults)
      d.toList parsed := by
  have hnumbered := (mapM_eq_ok.1 h).imp (fun _ _ he => Entry.plan_eq_ok he)
  have hdrop : List.Forall₂ (fun declared e => ∃ order signature,
      Signature.read (declared.2.signatureText declared.1) = .ok signature ∧
        e = PlannedEntry.fresh order declared.1 signature declared.2.target declared.2.defaults)
      (d.toList.zipIdx.map Prod.fst) parsed := by
    rw [List.forall₂_map_left_iff]
    exact hnumbered.imp (fun numbered _ he => ⟨numbered.2, he⟩)
  rwa [List.zipIdx_map_fst] at hdrop

/-- Behind the standard stages the planned entries stand for the declared ones. -/
theorem Engine.plan_standard {engine : Engine β} {d : Description β}
    {planned : List (PlannedEntry β)} (hs : engine.stages = Stage.standard)
    (h : engine.plan d = .ok planned) : d.PlannedAs planned := by
  obtain ⟨parsed, hparsed, hrun⟩ := bind_eq_ok.1 h
  rw [hs, Stage.runAll_eq_map (fun _ hstage => hstage)] at hrun
  obtain rfl := Except.ok.inj hrun
  rw [Description.PlannedAs, List.forall₂_map_right_iff]
  refine (Description.plan_eq_ok hparsed).imp ?_
  rintro ⟨source, entry⟩ e ⟨order, signature, hread, rfl⟩
  exact PlannedEntry.standsFor_fresh hread

namespace Description.PlannedAs
variable {d : Description β} {planned : List (PlannedEntry β)}

/-- Every planned entry stands for the one declared at its position. -/
theorem declared (h : d.PlannedAs planned) {position : Nat} {e : PlannedEntry β}
    (he : planned[position]? = some e) :
    ∃ source entry, d.toList[position]? = some (source, entry) ∧ e.StandsFor source entry := by
  obtain ⟨hlen, hget⟩ := List.forall₂_iff_get.1 h
  obtain ⟨hi, rfl⟩ := List.getElem?_eq_some_iff.1 he
  have hd : position < d.toList.length := by omega
  exact ⟨_, _, List.getElem?_eq_getElem hd, hget position hd hi⟩

/-- For every declared entry there is the planned one at its position. -/
theorem planned_at (h : d.PlannedAs planned) {position : Nat} {source : String} {entry : Entry β}
    (hd : d.toList[position]? = some (source, entry)) :
    ∃ e, planned[position]? = some e ∧ e.StandsFor source entry := by
  obtain ⟨hlen, hget⟩ := List.forall₂_iff_get.1 h
  obtain ⟨hi, hentry⟩ := List.getElem?_eq_some_iff.1 hd
  have hp : position < planned.length := by omega
  have hstands := hget position hi hp
  simp only [List.get_eq_getElem, hentry] at hstands
  exact ⟨_, List.getElem?_eq_getElem hp, hstands⟩

/-- A planned entry has the source and the target of a declared one. -/
theorem find?_source (h : d.PlannedAs planned) {e : PlannedEntry β} (he : e ∈ planned) :
    ∃ entry, d.find? e.source = some entry ∧ e.StandsFor e.source entry := by
  obtain ⟨position, hposition⟩ := List.mem_iff_getElem?.1 he
  obtain ⟨source, entry, hd, hstands⟩ := h.declared hposition
  obtain rfl := hstands.source_eq
  exact ⟨entry, OrderedMap.find?_eq_some_iff.2 (List.mem_of_getElem? hd), hstands⟩

/-- For every declared entry there is a planned one. -/
theorem exists_of_find? (h : d.PlannedAs planned) {source : String} {entry : Entry β}
    (hd : d.find? source = some entry) :
    ∃ i : Position planned, (planned.get i).StandsFor source entry := by
  obtain ⟨position, hposition⟩ := List.mem_iff_getElem?.1 (OrderedMap.find?_eq_some_iff.1 hd)
  obtain ⟨e, he, hstands⟩ := h.planned_at hposition
  obtain ⟨hi, rfl⟩ := List.getElem?_eq_some_iff.1 he
  exact ⟨⟨position, hi⟩, hstands⟩

end Description.PlannedAs

theorem PlannedEntry.method?_eq_some_iff {e : PlannedEntry β} {method : Implementation β} :
    e.method? = some method ↔ e.target = .method method := by
  unfold method?
  split <;> simp_all

/-- The keys that a planned entry claims, in the order of its shapes. -/
def PlannedEntry.claimedKeys (e : PlannedEntry β) : List Key := e.shapes.filterMap Shape.key?

theorem PlannedEntry.StandsFor.claimedKeys_eq {e : PlannedEntry β} {source : String}
    {entry : Entry β} (h : e.StandsFor source entry) : e.claimedKeys = e.signature.expand := by
  rw [claimedKeys, h.shapes_eq, List.filterMap_map]
  simp [Shape.key?_ofKey]

end ShapeDispatch
