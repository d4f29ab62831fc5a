import Mathlib.Data.List.Chain
import Mathlib.Data.Fintype.Card
import ShapeDispatch.Engine
import ShapeDispatch.Proofs.Building

/-!
The limit of hops. A chase that ends at an implementation ends there under every higher limit, so a table
stays what it is when the limit is raised. A chase meets no entry twice, so a limit of as many hops as
there are entries stops none, and all that can go wrong with an alias is then the fault of the aliases
themselves (`Unled`, `buildTable_limits`).
-/

namespace ShapeDispatch
variable {β : Type} {planned : List (PlannedEntry β)} {find? : String → Option (Position planned)}
  {start current terminal : Position planned} {passed : List (Position planned)} {limit limit' : Nat}

/-! ### A higher limit -/

theorem chase_of_le (h : chase find? limit start = .ok terminal) (hle : limit ≤ limit') :
    chase find? limit' start = .ok terminal := by
  obtain ⟨passed, current, htrail, hpassed, hverdict⟩ := chase_eq_iff.1 h
  cases hverdict with
  | found hmethod => exact chase_eq_iff.2 ⟨passed, _, htrail, hpassed.trans hle, .found hmethod⟩

theorem terminals_of_le {owners : OrderedMap Key (Position planned)} {ends : List (Position planned)}
    (h : terminals owners limit = .ok ends) (hle : limit ≤ limit') :
    terminals owners limit' = .ok ends :=
  mapM_eq_ok.2 ((mapM_eq_ok.1 h).imp (fun _ _ hchase => chase_of_le hchase hle))

/-- A table stays as it is when the limit is raised. -/
theorem buildTable_of_le {classifier : Classifier β} {config : EngineConfig} {t : DispatchTable β}
    (h : buildTable classifier config planned = .ok t) (hle : config.maxAliasHops ≤ limit) :
    buildTable classifier { config with maxAliasHops := limit } planned = .ok t := by
  obtain ⟨claims, hclaims, h⟩ := bind_eq_ok.1 h
  obtain ⟨ends, hends, h⟩ := bind_eq_ok.1 h
  have hends := terminals_of_le (mapError_eq_ok.1 hends) hle
  exact bind_eq_ok.2 ⟨claims, hclaims, bind_eq_ok.2 ⟨ends, mapError_eq_ok.2 hends, h⟩⟩

/-! ### A limit that stops nothing -/

/-- What is wrong with the aliases from `start`, whatever the limit. -/
inductive Unled (find? : String → Option (Position planned)) (start : Position planned) :
    AliasError → Prop where
  /-- They come to an alias whose target is not found. -/
  | missing {passed : List (Position planned)} {current : Position planned} {text : String} :
    Trail find? start passed current → (planned.get current).target = .aliasOf text →
      find? text = none → Unled find? start (.missingTarget (planned.get current).source text)
  /-- They come back to an entry that is listed before. -/
  | cycle {walk : List (Position planned)} {next : Position planned} :
    walk.head? = some start → (walk ++ [next]).IsChain (HopsTo find?) → walk.Nodup → next ∈ walk →
      Unled find? start
        (.cycle (planned.get start).source (sourcesAt planned (walk ++ [next])))

theorem Trail.isChain (h : Trail find? start passed current) :
    (passed ++ [current]).IsChain (HopsTo find?) := by
  induction h with
  | here => exact List.isChain_singleton _
  | hop _ hnext ih =>
    refine List.isChain_append.2 ⟨ih, List.isChain_singleton _, ?_⟩
    simpa using hnext

theorem Trail.head?_eq (h : Trail find? start passed current) :
    (passed ++ [current]).head? = some start := by
  induction h with
  | here => rfl
  | hop _ _ ih => rw [List.head?_append, ih, Option.some_or]

/-- There are more entries than one has come by without meeting any twice. -/
theorem length_lt_of_nodup (h : (passed ++ [current]).Nodup) : passed.length < planned.length := by
  have hle := h.length_le_card
  rw [List.length_append, List.length_singleton, Fintype.card_fin] at hle
  exact hle

/-- A chase that meets no entry twice is not stopped by a limit of as many hops as there are entries. -/
theorem chase_ne_hopLimitExceeded (hlimit : planned.length ≤ limit) {source : String} {n : Nat} :
    chase find? limit start ≠ .error (.hopLimitExceeded source n) := by
  intro h
  obtain ⟨passed, current, _, _, hverdict⟩ := chase_eq_iff.1 h
  cases hverdict with
  | exceeded hnodup hall _ =>
    have hlt := length_lt_of_nodup hnodup
    omega

theorem unled_of_chase (hlimit : planned.length ≤ limit) {e : AliasError}
    (h : chase find? limit start = .error e) : Unled find? start e := by
  obtain ⟨passed, current, htrail, _, hverdict⟩ := chase_eq_iff.1 h
  cases hverdict with
  | missing _ _ halias hnone => exact .missing htrail halias hnone
  | cycle hnodup _ hnext hmem =>
    refine .cycle htrail.head?_eq (List.isChain_append.2 ⟨htrail.isChain, ?_, ?_⟩) hnodup hmem
    · exact List.isChain_singleton _
    · simpa using hnext
  | exceeded => exact absurd h (chase_ne_hopLimitExceeded hlimit)

theorem Trail.cons {first : Position planned} (hfirst : HopsTo find? first start)
    (h : Trail find? start passed current) : Trail find? first (first :: passed) current := by
  induction h with
  | here => exact .hop .here hfirst
  | hop _ hnext ih => exact ih.hop hnext

theorem Follows.exists_trail (h : Follows find? start terminal) :
    ∃ passed method, Trail find? start passed terminal ∧
      (planned.get terminal).target = .method method := by
  induction h with
  | here hmethod => exact ⟨[], _, .here, hmethod⟩
  | hop halias hnext _ ih =>
    obtain ⟨passed, method, htrail, hmethod⟩ := ih
    exact ⟨_, method, htrail.cons ⟨_, halias, hnext⟩, hmethod⟩

/-- Aliases that lead to an implementation are followed to it, because they meet no entry twice on the
way. -/
theorem chase_of_follows (hlimit : planned.length ≤ limit) (h : Follows find? start terminal) :
    chase find? limit start = .ok terminal := by
  obtain ⟨passed, method, htrail, hmethod⟩ := h.exists_trail
  have hlt := length_lt_of_nodup (htrail.nodup (.here hmethod))
  exact chase_eq_iff.2 ⟨passed, terminal, htrail, by omega, .found hmethod⟩

/-- Claiming does not fail for an alias. -/
theorem Claims.all_ne_unresolved {policy : CollisionPolicy} {e : AliasError} :
    Claims.all policy planned ≠ .error (.unresolved e) := by
  intro h
  obtain ⟨_, i, _, _, _, _, hentry⟩ := foldlM_eq_error.1 h
  obtain ⟨_, shape, _, c, _, _, hclaim⟩ := foldlM_eq_error.1 hentry
  unfold claimShape at hclaim
  split at hclaim
  · next key _ =>
    have hanswer := answer_claim policy c key i
    rw [hclaim] at hanswer
    cases hanswer
  · cases hclaim

/-- LIMITS: a table that is built under a limit of hops is built under every higher limit. A limit of
as many hops as there are entries is never exceeded; if building fails for an alias then, it is because a
target is not found or because the aliases come back to an entry that is listed before, each listed entry
being an alias whose target finds the next, and no chain of aliases leads from the alias that fails to an
implementation. -/
theorem buildTable_limits (classifier : Classifier β) (config : EngineConfig)
    (planned : List (PlannedEntry β)) :
    (∀ t limit, buildTable classifier config planned = .ok t → config.maxAliasHops ≤ limit →
      buildTable classifier { config with maxAliasHops := limit } planned = .ok t) ∧
    (planned.length ≤ config.maxAliasHops → ∀ e,
      buildTable classifier config planned = .error (.unresolved e) →
      (∀ source limit, e ≠ .hopLimitExceeded source limit) ∧
      ∃ claims start, Claims.all config.collisionPolicy planned = .ok claims ∧
        Unled (findTarget? claims.owners) start e ∧
        ∀ terminal, ¬Follows (findTarget? claims.owners) start terminal) := by
  refine ⟨fun t limit => buildTable_of_le, fun hlimit e h => ?_⟩
  rcases bind_eq_error.1 h with hclaims | ⟨claims, hclaims, hfails⟩
  · exact absurd hclaims Claims.all_ne_unresolved
  · obtain ⟨start, e', he, hchase, _⟩ := (buildTable_eq_error_iff hclaims).1 h
    cases he
    refine ⟨?_, claims, start, hclaims, unled_of_chase hlimit hchase, ?_⟩
    · rintro source limit rfl
      exact chase_ne_hopLimitExceeded hlimit hchase
    · intro terminal hfollows
      rw [chase_of_follows hlimit hfollows] at hchase
      cases hchase

/-- An alias of an alias of an entry with an implementation. -/
def detour : Description Unit :=
  ((Description.empty.insert "[number]" (.method ⟨"number", 0, [], ()⟩)).insert
    "[a]" (.aliasOf "[b]")).insert "[b]" (.aliasOf "[number]")

/-- An alias of the first of two aliases of each other. -/
def roundabout : Description Unit :=
  ((Description.empty.insert "[a]" (.aliasOf "[b]")).insert "[b]" (.aliasOf "[c]")).insert
    "[c]" (.aliasOf "[b]")

/-- The default configuration under another limit. -/
def limitedTo (limit : Nat) : EngineConfig := { EngineConfig.default with maxAliasHops := limit }

theorem buildTable_limits_detour :
    (∃ planned t, Engine.standard.plan detour = .ok planned ∧
      failure? (buildTable .standard (limitedTo 1) planned) =
        some (.unresolved (.hopLimitExceeded "[a]" 1)) ∧
      buildTable .standard (limitedTo 2) planned = .ok t ∧
      buildTable .standard (limitedTo 9) planned = .ok t) ∧
    ∃ planned claims start, Engine.standard.plan roundabout = .ok planned ∧ planned.length = 3 ∧
      buildTable .standard (limitedTo 3) planned =
        .error (.unresolved (.cycle "[a]" ["[a]", "[b]", "[c]", "[b]"])) ∧
      Claims.all .lastDeclaredWins planned = .ok claims ∧
      Unled (findTarget? claims.owners) start (.cycle "[a]" ["[a]", "[b]", "[c]", "[b]"]) := by
  constructor
  · obtain ⟨planned, hplan, h⟩ : ∃ planned, Engine.standard.plan detour = .ok planned ∧
        (failure? (buildTable .standard (limitedTo 1) planned),
          (buildTable .standard (limitedTo 2) planned).toOption.isSome) =
        (some (.unresolved (.hopLimitExceeded "[a]" 1)), true) :=
      exists_ok_of_toOption (by decide +kernel)
    obtain ⟨hexceeded, hbuilt⟩ := Prod.ext_iff.1 h
    obtain ⟨t, ht⟩ := Option.isSome_iff_exists.1 hbuilt
    have ht := toOption_eq_some.1 ht
    have hraised := (buildTable_limits .standard (limitedTo 2) planned).1 t 9 ht (by decide)
    exact ⟨planned, t, hplan, hexceeded, ht, hraised⟩
  · obtain ⟨planned, hplan, h⟩ : ∃ planned, Engine.standard.plan roundabout = .ok planned ∧
        (planned.length, failure? (buildTable .standard (limitedTo 3) planned)) =
        (3, some (.unresolved (.cycle "[a]" ["[a]", "[b]", "[c]", "[b]"]))) :=
      exists_ok_of_toOption (by decide +kernel)
    obtain ⟨hlength, hfails⟩ := Prod.ext_iff.1 h
    have hfails := failure?_eq_some.1 hfails
    obtain ⟨_, claims, start, hclaims, hunled, _⟩ :=
      (buildTable_limits .standard (limitedTo 3) planned).2 hlength.le _ hfails
    exact ⟨planned, claims, start, hplan, hlength, hfails, hclaims, hunled⟩

end ShapeDispatch
