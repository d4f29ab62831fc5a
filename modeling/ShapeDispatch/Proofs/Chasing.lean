import Mathlib.Logic.Relation
import ShapeDispatch.Proofs.Outcome
import ShapeDispatch.Proofs.OrderedMap
import ShapeDispatch.Table.Alias

/-!
Where aliases lead. `Follows` says that a chain of aliases goes from one entry to another, which has
an implementation; it knows neither a limit nor the entries visited. A `Trail` knows the entries on the
way, and a `Verdict` says what a chase that got to its end makes of it. A chase comes to one verdict
after at most as many hops as it may take (`chase_eq_iff`), and what it finds is the end of a chain of
aliases (`chase_follows`).
-/

namespace ShapeDispatch

section
variable {β : Type} {planned : List (PlannedEntry β)} {find? : String → Option (Position planned)}

/-- The aliases from one entry lead to another, which has an implementation. -/
inductive Follows (find? : String → Option (Position planned)) :
    Position planned → Position planned → Prop where
  | here {i : Position planned} {method : Implementation β} :
    (planned.get i).target = .method method → Follows find? i i
  | hop {i next terminal : Position planned} {text : String} :
    (planned.get i).target = .aliasOf text → find? text = some next →
      Follows find? next terminal → Follows find? i terminal

theorem Follows.method {i terminal : Position planned} (h : Follows find? i terminal) :
    ∃ method, (planned.get terminal).method? = some method := by
  induction h with
  | here hm =>
    rw [PlannedEntry.method?, hm]
    exact ⟨_, rfl⟩
  | hop _ _ _ ih => exact ih

/-- Aliases lead to one entry only. -/
theorem Follows.unique {i terminal other : Position planned} (h : Follows find? i terminal)
    (hother : Follows find? i other) : terminal = other := by
  induction h with
  | here hmethod =>
    cases hother with
    | here _ => rfl
    | hop halias _ _ =>
      rw [hmethod] at halias
      cases halias
  | hop halias hnext _ ih =>
    cases hother with
    | here hmethod =>
      rw [hmethod] at halias
      cases halias
    | hop halias' hnext' hother =>
      rw [halias] at halias'
      cases halias'
      rw [hnext] at hnext'
      cases hnext'
      exact ih hother

/-- The aliases behind an alias start with its target. -/
theorem Follows.of_aliasOf {i terminal : Position planned} {text : String}
    (h : Follows find? i terminal) (halias : (planned.get i).target = .aliasOf text) :
    ∃ next, find? text = some next ∧ Follows find? next terminal := by
  cases h with
  | here hmethod =>
    rw [hmethod] at halias
    cases halias
  | hop halias' hnext hrest =>
    rw [halias] at halias'
    cases halias'
    exact ⟨_, hnext, hrest⟩

/-- The entry at `i` is an alias whose target is found at `next`. -/
def HopsTo (find? : String → Option (Position planned)) (i next : Position planned) : Prop :=
  ∃ text, (planned.get i).target = .aliasOf text ∧ find? text = some next

theorem HopsTo.unique {i next other : Position planned} (h : HopsTo find? i next)
    (hother : HopsTo find? i other) : next = other := by
  obtain ⟨text, halias, hnext⟩ := h
  obtain ⟨text', halias', hnext'⟩ := hother
  rw [halias] at halias'
  cases halias'
  rw [hnext] at hnext'
  exact Option.some.inj hnext'

theorem Follows.of_hopsTo {i next terminal : Position planned} (h : HopsTo find? i next)
    (hfollows : Follows find? next terminal) : Follows find? i terminal := by
  obtain ⟨text, halias, hnext⟩ := h
  exact .hop halias hnext hfollows

/-- Aliases that lead to an implementation do not lead back to where they started. -/
theorem Follows.acyclic {i terminal : Position planned} (h : Follows find? i terminal) :
    ¬Relation.TransGen (HopsTo find?) i i := by
  induction h with
  | here hmethod =>
    intro hcycle
    obtain ⟨_, ⟨_, halias, _⟩, _⟩ := Relation.TransGen.head'_iff.1 hcycle
    rw [hmethod] at halias
    cases halias
  | @hop i next terminal text halias hnext _ ih =>
    intro hcycle
    -- the way back starts with the same hop, so it would lead from `next` to `next`
    have hfirst : HopsTo find? i next := ⟨text, halias, hnext⟩
    obtain ⟨next', hfirst', hback⟩ := Relation.TransGen.head'_iff.1 hcycle
    obtain rfl := hfirst.unique hfirst'
    exact ih (Relation.TransGen.tail' hback hfirst)

/-- From `start` one comes to `current` by as many hops as there are entries in `passed`, which are
the aliases on the way. -/
inductive Trail (find? : String → Option (Position planned)) (start : Position planned) :
    (passed : List (Position planned)) → (current : Position planned) → Prop where
  | here : Trail find? start [] start
  | hop {passed : List (Position planned)} {current next : Position planned} :
    Trail find? start passed current → HopsTo find? current next →
      Trail find? start (passed ++ [current]) next

/-- What a chase from `start` comes to when it has come by `passed` to `current`. -/
inductive Verdict (find? : String → Option (Position planned)) (limit : Nat)
    (start : Position planned) (passed : List (Position planned)) (current : Position planned) :
    Except AliasError (Position planned) → Prop where
  | found {method : Implementation β} : (planned.get current).target = .method method →
    Verdict find? limit start passed current (.ok current)
  | missing {text : String} : (passed ++ [current]).Nodup → passed.length < limit →
    (planned.get current).target = .aliasOf text → find? text = none →
      Verdict find? limit start passed current
        (.error (.missingTarget (planned.get current).source text))
  | cycle {next : Position planned} : (passed ++ [current]).Nodup → passed.length < limit →
    HopsTo find? current next → next ∈ passed ++ [current] →
      Verdict find? limit start passed current
        (.error (.cycle (planned.get start).source
          (sourcesAt planned (passed ++ [current] ++ [next]))))
  | exceeded {text : String} : (passed ++ [current]).Nodup → passed.length = limit →
    (planned.get current).target = .aliasOf text →
      Verdict find? limit start passed current
        (.error (.hopLimitExceeded (planned.get start).source limit))

/-- A chase from `start` comes to this outcome, after at most `limit` hops. -/
def Chased (find? : String → Option (Position planned)) (limit : Nat) (start : Position planned)
    (outcome : Except AliasError (Position planned)) : Prop :=
  ∃ passed current, Trail find? start passed current ∧ passed.length ≤ limit ∧
    Verdict find? limit start passed current outcome

section
variable {start current next terminal : Position planned} {passed : List (Position planned)}

theorem Trail.follows (h : Trail find? start passed current)
    (hfollows : Follows find? current terminal) : Follows find? start terminal := by
  induction h with
  | here => exact hfollows
  | hop _ hnext ih => exact ih (.of_hopsTo hnext hfollows)

/-- Each entry on a trail leads to its end. -/
theorem Trail.leads (h : Trail find? start passed current) :
    ∀ i ∈ passed ++ [current], Relation.ReflTransGen (HopsTo find?) i current := by
  induction h with
  | here =>
    intro i hi
    obtain rfl := List.mem_singleton.1 hi
    exact .refl
  | hop _ hnext ih =>
    intro i hi
    rcases List.mem_append.1 hi with hi | hi
    · exact (ih i hi).tail hnext
    · obtain rfl := List.mem_singleton.1 hi
      exact .refl

/-- A trail towards an implementation comes by no entry twice. -/
theorem Trail.nodup (h : Trail find? start passed current)
    (hfollows : Follows find? current terminal) : (passed ++ [current]).Nodup := by
  induction h with
  | here => exact List.nodup_singleton _
  | @hop passed current next htrail hnext ih =>
    rw [← List.concat_eq_append, List.nodup_concat]
    refine ⟨fun hcycle => ?_, ih (.of_hopsTo hnext hfollows)⟩
    exact hfollows.acyclic (Relation.TransGen.tail' (htrail.leads next hcycle) hnext)

/-! ### One hop of a chase -/

variable {limit hops : Nat} {visited : List (Position planned)} {text : String}

theorem chaseFrom_of_method {method : Implementation β}
    (h : (planned.get current).target = .method method) :
    chaseFrom find? limit start hops visited current = .ok current := by
  rw [chaseFrom.eq_def]
  simp only [h]

theorem chaseFrom_zero (h : (planned.get current).target = .aliasOf text) :
    chaseFrom find? limit start 0 visited current =
      .error (.hopLimitExceeded (planned.get start).source limit) := by
  rw [chaseFrom.eq_def]
  simp only [h]

theorem chaseFrom_of_missing (h : (planned.get current).target = .aliasOf text)
    (hnone : find? text = none) :
    chaseFrom find? limit start (hops + 1) visited current =
      .error (.missingTarget (planned.get current).source text) := by
  rw [chaseFrom.eq_def]
  simp only [h, hnone]

theorem chaseFrom_of_hopsTo (h : HopsTo find? current next) :
    chaseFrom find? limit start (hops + 1) visited current =
      if next ∈ visited then
        .error (.cycle (planned.get start).source (sourcesAt planned (visited ++ [next])))
      else chaseFrom find? limit start hops (visited ++ [next]) next := by
  obtain ⟨text, halias, hnext⟩ := h
  rw [chaseFrom.eq_def]
  simp only [halias, hnext]

/-! ### All hops -/

/-- From any point that a chase reaches without a repetition, it comes to a verdict. -/
theorem chased_chaseFrom : ∀ {hops : Nat} {passed : List (Position planned)}
    {current : Position planned}, Trail find? start passed current →
      (passed ++ [current]).Nodup → passed.length + hops = limit →
      Chased find? limit start (chaseFrom find? limit start hops (passed ++ [current]) current)
  | hops, passed, current, htrail, hnodup, hlimit => by
    have hle : passed.length ≤ limit := by omega
    cases htarget : (planned.get current).target with
    | method method =>
      rw [chaseFrom_of_method htarget]
      exact ⟨passed, current, htrail, hle, .found htarget⟩
    | aliasOf text =>
      cases hops with
      | zero =>
        rw [chaseFrom_zero htarget]
        exact ⟨passed, current, htrail, hle, .exceeded hnodup hlimit htarget⟩
      | succ hops =>
        have hlt : passed.length < limit := by omega
        cases hfind : find? text with
        | none =>
          rw [chaseFrom_of_missing htarget hfind]
          exact ⟨passed, current, htrail, hle, .missing hnodup hlt htarget hfind⟩
        | some next =>
          have hnext : HopsTo find? current next := ⟨text, htarget, hfind⟩
          rw [chaseFrom_of_hopsTo hnext]
          by_cases hcycle : next ∈ passed ++ [current]
          · rw [if_pos hcycle]
            exact ⟨passed, current, htrail, hle, .cycle hnodup hlt hnext hcycle⟩
          · rw [if_neg hcycle]
            refine chased_chaseFrom (.hop htrail hnext) ?_ ?_
            · rw [← List.concat_eq_append, List.nodup_concat]
              exact ⟨hcycle, hnodup⟩
            · rw [List.length_append, List.length_singleton]
              omega

/-- A chase goes along the trail from its start as long as no entry repeats and hops are left. -/
theorem Trail.chase_eq (h : Trail find? start passed current) :
    ∀ {hops : Nat}, (passed ++ [current]).Nodup → passed.length + hops = limit →
      chase find? limit start = chaseFrom find? limit start hops (passed ++ [current]) current := by
  induction h with
  | here =>
    intro hops _ hlimit
    obtain rfl : hops = limit := by simpa using hlimit
    rfl
  | @hop passed current next htrail hnext ih =>
    intro hops hnodup hlimit
    rw [← List.concat_eq_append, List.nodup_concat] at hnodup
    obtain ⟨hnew, hbefore⟩ := hnodup
    rw [List.length_append, List.length_singleton] at hlimit
    rw [@ih (hops + 1) hbefore (by omega), chaseFrom_of_hopsTo hnext, if_neg hnew]

/-- A chase comes to the verdict at the end of its trail. -/
theorem chase_eq_iff {outcome : Except AliasError (Position planned)} :
    chase find? limit start = outcome ↔ Chased find? limit start outcome := by
  constructor
  · rintro rfl
    exact chased_chaseFrom .here (List.nodup_singleton _) (Nat.zero_add limit)
  · rintro ⟨passed, current, htrail, hle, hverdict⟩
    obtain ⟨hops, hlimit⟩ := Nat.exists_eq_add_of_le hle
    cases hverdict with
    | found hmethod =>
      rw [htrail.chase_eq (htrail.nodup (.here hmethod)) hlimit.symm, chaseFrom_of_method hmethod]
    | missing hnodup hlt halias hnone =>
      obtain ⟨left, rfl⟩ : ∃ left, hops = left + 1 := Nat.exists_eq_add_one.2 (by omega)
      rw [htrail.chase_eq hnodup hlimit.symm, chaseFrom_of_missing halias hnone]
    | cycle hnodup hlt hnext hcycle =>
      obtain ⟨left, rfl⟩ : ∃ left, hops = left + 1 := Nat.exists_eq_add_one.2 (by omega)
      rw [htrail.chase_eq hnodup hlimit.symm, chaseFrom_of_hopsTo hnext, if_pos hcycle]
    | exceeded hnodup hall halias =>
      obtain rfl : hops = 0 := by omega
      rw [htrail.chase_eq hnodup hlimit.symm, chaseFrom_zero halias]

/-- A chase that misses a target has come to an alias whose target is not found. -/
theorem exists_of_chase_missing {source : String}
    (h : chase find? limit start = .error (.missingTarget source text)) : ∃ i : Position planned,
      (planned.get i).source = source ∧ (planned.get i).target = .aliasOf text ∧
        find? text = none := by
  obtain ⟨_, current, _, _, hverdict⟩ := chase_eq_iff.1 h
  cases hverdict with
  | missing _ _ halias hnone => exact ⟨current, rfl, halias, hnone⟩

/-- A chase ends at an entry with an implementation that the aliases lead to. -/
theorem chase_follows (h : chase find? limit start = .ok terminal) :
    Follows find? start terminal := by
  obtain ⟨_, _, htrail, _, hverdict⟩ := chase_eq_iff.1 h
  cases hverdict with
  | found hmethod => exact htrail.follows (.here hmethod)

end

/-- Every entry has its place among the ends of the chases. -/
theorem getElem?_terminals {owners : OrderedMap Key (Position planned)} {limit : Nat}
    {ends : List (Position planned)} (h : terminals owners limit = .ok ends)
    (i : Position planned) :
    ∃ terminal, ends[i.1]? = some terminal ∧ Follows (findTarget? owners) i terminal := by
  obtain ⟨hlen, hends⟩ := List.forall₂_iff_get.1 (mapM_eq_ok.1 h)
  rw [List.length_finRange] at hlen
  have hi : i.1 < ends.length := hlen ▸ i.2
  have hchase : chase (findTarget? owners) limit i = .ok (ends.get ⟨i.1, hi⟩) := by
    simpa using hends i.1 (by simp) hi
  exact ⟨_, List.getElem?_eq_getElem hi, chase_follows hchase⟩

theorem source_of_positionOf? {text : String} {i : Position planned}
    (h : positionOf? planned text = some i) : (planned.get i).source = text := by
  simpa using List.find?_some h

theorem positionOf?_eq_none_iff {text : String} :
    positionOf? planned text = none ↔ ∀ i : Position planned, (planned.get i).source ≠ text := by
  simp [positionOf?, List.find?_eq_none, List.mem_finRange]

theorem spelledKey?_eq_some_iff {text : String} {key : Key} : spelledKey? text = some key ↔
    ∃ signature, Signature.read text = .ok signature ∧ signature.expand = [key] := by
  unfold spelledKey?
  cases Signature.read text with
  | error e => simp
  | ok signature =>
    simp only [Except.ok.injEq, exists_eq_left']
    split
    · next only honly => simp [honly]
    · next hseveral =>
      constructor
      · intro h
        cases h
      · intro honly
        exact absurd honly (hseveral key)

theorem findTarget?_eq_none_iff {owners : OrderedMap Key (Position planned)} {text : String} :
    findTarget? owners text = none ↔ positionOf? planned text = none ∧
      ∀ key, spelledKey? text = some key → owners.find? key = none := by
  unfold findTarget?
  split
  · next hposition => simp [hposition]
  · next hposition => simp [hposition, Option.bind_eq_none_iff]

end

end ShapeDispatch
