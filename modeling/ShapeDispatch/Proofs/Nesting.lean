import ShapeDispatch.Body
import ShapeDispatch.Proofs.Delivery
import ShapeDispatch.Proofs.Keeping

/-!
Resolvers inside resolvers. An implementation that dispatches to another resolver hands its values on
without their names (`Implementation.HandsTo`). So a call that reaches it gives what the inner
resolver gives for the filled-up arguments, be it a value or an error; and as the inner call may
itself reach such an implementation, the law is about whole chains of calls (`Resolver.Descends`,
`Resolver.call_nested`).
-/

namespace ShapeDispatch
variable {β : Type} {run : Runner β}

/-- An implementation does what a resolver does with the values it receives, whatever their names. -/
def Implementation.HandsTo (nested : Implementation β) (run : Runner β) (inner : Resolver β) : Prop :=
  ∀ received, nested.invoke run received = inner.call run received.values

theorem EmbeddableResolver.handsTo (r : EmbeddableResolver) (identity : Nat) :
    (r.toImplementation identity).HandsTo Body.run r.toResolver :=
  fun received => Body.run_dispatch r.table r.classifier received

/-- Names that are pairwise different, and enough of them, change neither number nor order of the
values. -/
theorem deliver_values {names : List String} {values : List (Value β)} (hnodup : names.Nodup)
    (henough : names ≠ [] → values.length ≤ names.length) :
    ∃ received, deliver names values = .ok received ∧ received.values = values := by
  obtain ⟨received, hreceived⟩ : ∃ received, deliver names values = .ok received := by
    by_cases hnames : names = []
    · rw [deliver, hnames]
      exact ⟨_, rfl⟩
    · rw [deliver, if_neg (by simpa using hnames), bindNames,
        if_neg (Nat.not_lt.2 (henough hnames))]
      exact ⟨_, rfl⟩
  refine ⟨received, hreceived, List.ext_getElem? ?_⟩
  exact ((deliver_delivers_iff hreceived).2 (hnodup.sublist (List.take_sublist _ _))).at_eq

/-- An entry with this target is declared under a text. -/
def Description.Declares (d : Description β) (source : String) (target : Target β) : Prop :=
  ∃ entry, d.find? source = some entry ∧ entry.target = target

/-- The stages of the author's own leave the entry that is declared under a text its target. -/
def Engine.KeepsTarget (engine : Engine β) (source : String) (target : Target β) : Prop :=
  ∀ name change, .custom name change ∈ engine.stages →
    (Stage.custom name change).Preserves (fun e => e.source = source → e.target = target)

theorem Engine.keepsTarget_standard {source : String} {target : Target β} :
    (standard : Engine β).KeepsTarget source target := by
  simp [KeepsTarget, standard, Stage.standard]

/-- The implementation of an entry of a table is the declared one, with its parameters named. -/
theorem Engine.KeepsTarget.implementation_eq {engine : Engine β} {d : Description β}
    {r : Resolver β} {e : ResolvedEntry β} {method : Implementation β}
    (hkeeps : engine.KeepsTarget e.source (.method method)) (h : engine.compile d = .ok r)
    (he : e ∈ r.table.entries) (hdeclared : d.Declares e.source (.method method)) :
    e.implementation = method.bind (e.paramNames.getD []) := by
  obtain ⟨planned, hplan, claims, _, ht⟩ := Engine.compile_eq_ok h
  obtain ⟨p, hp, method', hmethod, hr⟩ := ht.mem_entries he
  have hsource : p.source = e.source := by
    rw [hr]
    rfl
  obtain ⟨entry, hentry, htarget⟩ := hdeclared
  have htarget' : p.target = .method method := by
    refine Engine.forall_plan (P := fun source target _ => source = e.source →
      target = .method method) hkeeps ?_ hplan p hp hsource
    rintro ⟨source, entry'⟩ hmem rfl
    obtain rfl := Option.some.inj (hentry.symm.trans (OrderedMap.find?_eq_some_iff.2 hmem))
    exact htarget
  rw [PlannedEntry.method?_eq_some_iff.1 hmethod] at htarget'
  cases htarget'
  rw [hr]
  by_cases hnames : p.paramNames = []
  · simp [resolveMethod, hnames]
  · simp [resolveMethod, hnames]

namespace Resolver

/-- A call of `outer` with `args` gets to a call of `last` with `args'`: each resolver on the way
selects an entry whose declared implementation hands its values to the next one. If the entry has
names, there is one for each value and none occurs twice. -/
inductive Descends (run : Runner β) :
    (outer : Resolver β) → (args : List (Value β)) → (last : Resolver β) → (args' : List (Value β)) →
      Prop
  | here {r : Resolver β} {args : List (Value β)} : Descends run r args r args
  | down {engine : Engine β} {d : Description β} {outer inner last : Resolver β}
      {nested : Implementation β} {args args' : List (Value β)} {s : Selection β}
      (compiled : engine.compile d = .ok outer) (selects : outer.select args = .ok s)
      (declared : d.Declares s.entry.source (.method nested))
      (keeps : engine.KeepsTarget s.entry.source (.method nested)) (hands : nested.HandsTo run inner)
      (named : ∀ names, s.entry.paramNames = some names →
        names.Nodup ∧ args.length + s.padding.length ≤ names.length)
      (rest : Descends run inner (args ++ s.padding) last args') : Descends run outer args last args'

/-- One level: the outer call is the inner call with the filled-up arguments. -/
theorem call_eq_of_handsTo {engine : Engine β} {d : Description β} {outer inner : Resolver β}
    {nested : Implementation β} {args : List (Value β)} {s : Selection β}
    (h : engine.compile d = .ok outer) (hs : outer.select args = .ok s)
    (hdeclared : d.Declares s.entry.source (.method nested))
    (hkeeps : engine.KeepsTarget s.entry.source (.method nested)) (hhands : nested.HandsTo run inner)
    (hnamed : ∀ names, s.entry.paramNames = some names →
      names.Nodup ∧ args.length + s.padding.length ≤ names.length) :
    outer.call run args = inner.call run (args ++ s.padding) := by
  have himplementation := hkeeps.implementation_eq h (select_mem hs) hdeclared
  obtain ⟨received, hreceived, hvalues⟩ :
      ∃ received, deliver (s.entry.paramNames.getD []) (args ++ s.padding) = .ok received ∧
        received.values = args ++ s.padding := by
    cases hnames : s.entry.paramNames with
    | none => exact deliver_values List.nodup_nil (fun hne => absurd rfl hne)
    | some names =>
      obtain ⟨hnodup, henough⟩ := hnamed names hnames
      exact deliver_values hnodup (fun _ => by rwa [List.length_append])
  calc outer.call run args
      = s.entry.implementation.call run (args ++ s.padding) := by rw [call, hs]
    _ = nested.invoke run received := by
        rw [himplementation, Implementation.call_bind, hreceived]
        rfl
    _ = inner.call run (args ++ s.padding) := by rw [hhands received, hvalues]

theorem select_eq_error {r : Resolver β} {args : List (Value β)} {error : DispatchError}
    (h : r.select args = .error error) : error = .miss (r.typeKey args) := by
  unfold select at h
  dsimp only at h
  split at h
  · cases h
  · split at h
    · cases h
    · exact (Except.error.inj h).symm

namespace Descends
variable {outer last : Resolver β} {args args' : List (Value β)}

theorem call_eq (h : Descends run outer args last args') :
    outer.call run args = last.call run args' := by
  induction h with
  | here => rfl
  | down compiled selects declared keeps hands named _ ih =>
    rw [call_eq_of_handsTo compiled selects declared keeps hands named, ih]

theorem args_prefix (h : Descends run outer args last args') : args <+: args' := by
  induction h with
  | here => exact List.prefix_rfl
  | down _ _ _ _ _ _ _ ih => exact (List.prefix_append _ _).trans ih

end Descends

/-- NESTING: a call that gets to a call of another resolver, through any number of resolvers in between,
has the same result. The arguments arrive there in their order, filled up behind, and without the
names they had on the way; where the last resolver misses, its key is the one that is reported. Every
resolver that is embedded in an implementation is reached this way. -/
theorem call_nested :
    (∀ (r : EmbeddableResolver) identity,
      (r.toImplementation identity).HandsTo Body.run r.toResolver) ∧
    ∀ {β : Type} {run : Runner β} {outer last : Resolver β} {args args' : List (Value β)},
      Descends run outer args last args' →
        outer.call run args = last.call run args' ∧ args <+: args' ∧
        ∀ error, last.select args' = .error error →
          outer.call run args = .error (.miss (last.typeKey args')) := by
  refine ⟨EmbeddableResolver.handsTo, fun h => ⟨h.call_eq, h.args_prefix, fun error herror => ?_⟩⟩
  rw [h.call_eq, call, herror, ← select_eq_error herror]

/-- The table of a description as it can be embedded. -/
def embedded (d : Description Body) : EmbeddableResolver :=
  ⟨(Engine.standard.buildTable d).toOption.getD ⟨.empty, [], [], []⟩, .default⟩

theorem compile_eq_embedded {d : Description Body} {r : Resolver Body}
    (h : Engine.standard.compile d = .ok r) : r = (embedded d).toResolver := by
  obtain ⟨t, ht, h⟩ := bind_eq_ok.1 h
  cases h
  rw [embedded, ht]
  rfl

/-- Handles numbers only. -/
def innermost : Description Body :=
  Description.empty.insert "[number]" (.method ⟨"f", 0, [], .arguments⟩)

/-- Names its parameters, and fills up the second one. -/
def middle : Description Body :=
  .ofOverloads [⟨"[string:text, array:list]", [.null, .array []],
    (embedded innermost).toImplementation 1⟩]

/-- Hands strings on as they come. -/
def outermost : Description Body :=
  Description.empty.insert "[string]" (.method ((embedded middle).toImplementation 2))

theorem call_nested_outermost : ∃ r padding, Engine.standard.compile outermost = .ok r ∧
    Descends Body.run r [.string "a"] (embedded innermost).toResolver ([.string "a"] ++ padding) ∧
    r.call Body.run [.string "a"] = .error (.miss ⟨["string", "array"]⟩) := by
  obtain ⟨r, hr, h⟩ : ∃ r, Engine.standard.compile outermost = .ok r ∧
      (r.select [.string "a"]).toOption.map
        (fun s => (s.entry.source, s.entry.paramNames, s.padding.length)) =
          some ("[string]", none, 0) := exists_ok_of_toOption (by decide +kernel)
  obtain ⟨s, hs, h⟩ := exists_ok_of_toOption h
  simp only [Prod.mk.injEq, List.length_eq_zero_iff] at h
  obtain ⟨hsource, hnames, hpadding⟩ := h
  obtain ⟨r', hr', h⟩ : ∃ r', Engine.standard.compile middle = .ok r' ∧
      (r'.select [.string "a"]).toOption.map
        (fun s => (s.entry.source, s.entry.paramNames,
          (embedded innermost).toResolver.typeKey ([.string "a"] ++ s.padding),
          ((embedded innermost).toResolver.select ([.string "a"] ++ s.padding)).toOption.isSome)) =
          some ("[string:text, array:list]", some ["text", "list"], ⟨["string", "array"]⟩, false) :=
    exists_ok_of_toOption (by decide +kernel)
  obtain ⟨s', hs', h⟩ := exists_ok_of_toOption h
  simp only [Prod.mk.injEq] at h
  obtain ⟨hsource', hnames', hkey, hmiss⟩ := h
  have hlength : 1 + s'.padding.length = 2 := by
    have hlengths := congrArg Key.length hkey
    rw [typeKey_length, List.length_append] at hlengths
    exact hlengths
  have hdescends : Descends Body.run r [.string "a"] (embedded innermost).toResolver
      ([.string "a"] ++ s'.padding) := by
    refine .down hr hs ⟨_, by rw [hsource]; rfl, rfl⟩ Engine.keepsTarget_standard
      (EmbeddableResolver.handsTo _ 2) (by simp [hnames]) ?_
    rw [hpadding, List.append_nil, ← compile_eq_embedded hr']
    refine .down hr' hs' ⟨_, by rw [hsource']; rfl, rfl⟩ Engine.keepsTarget_standard
      (EmbeddableResolver.handsTo _ 1) ?_ .here
    intro names hnames
    rw [hnames'] at hnames
    cases hnames
    exact ⟨by decide, Nat.le_of_eq hlength⟩
  refine ⟨r, s'.padding, hr, hdescends, ?_⟩
  rw [← hkey]
  cases hselect : (embedded innermost).toResolver.select ([.string "a"] ++ s'.padding) with
  | ok s =>
    rw [hselect] at hmiss
    cases hmiss
  | error error => exact (call_nested.2 hdescends).2.2 error hselect

end Resolver

end ShapeDispatch
