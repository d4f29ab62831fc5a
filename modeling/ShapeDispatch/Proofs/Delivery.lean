import ShapeDispatch.Proofs.Building

/-!
What reaches a body. A call's values come through whole, each at its place and under its name, exactly
if the names they are bound to are pairwise different (`bindNames_delivers_iff`); where a name is
repeated, the earlier of its values is lost. Neither inline names nor projections are tested for
repetitions, so `call_delivers_iff` gives that condition for every call of a compiled description.
-/

namespace ShapeDispatch
variable {β : Type}

/-- What a declared implementation receives of a call's values: all of them by position, or a record if
its signature names them. -/
def deliver (names : List String) (values : List (Value β)) : Except DispatchError (CallArgs β) :=
  if names.isEmpty then .ok (.positional values) else bindNames names values

/-- Every value is received at its place and, where there is a name for it, under its name. -/
structure CallArgs.Delivers (received : CallArgs β) (names : List String)
    (values : List (Value β)) : Prop where
  length_eq : received.length = values.length
  at_eq : ∀ index, received.at? index = values[index]?
  get_eq : ∀ {index : Nat} {name : String} {value : Value β}, names[index]? = some name →
    values[index]? = some value → received.get? name = some value

theorem map_fst_zip_eq_take {γ δ : Type} (as : List γ) (bs : List δ)
    (h : bs.length ≤ as.length) : (as.zip bs).map Prod.fst = as.take bs.length := by
  have hzip : as.zip bs = (as.take bs.length).zip bs := by
    rw [List.zip_eq_zip_take_min, Nat.min_eq_right h, List.take_length]
  rw [hzip, List.map_fst_zip]
  exact List.length_take_le _ _

/-- A record holds every value exactly if the names that were used are pairwise different. -/
theorem bindNames_delivers_iff {names : List String} {values : List (Value β)}
    {received : CallArgs β} (h : bindNames names values = .ok received) :
    received.Delivers names values ↔ (names.take values.length).Nodup := by
  unfold bindNames at h
  split at h
  · cases h
  · next hfew =>
    cases h
    have hlength : values.length ≤ names.length := Nat.le_of_not_lt hfew
    have hpairs : (names.zip values).length = values.length := by
      rw [List.length_zip, Nat.min_eq_right hlength]
    rw [← map_fst_zip_eq_take names values hlength]
    constructor
    · intro hdelivers
      have hcount := hdelivers.length_eq
      simp only [CallArgs.length, CallArgs.values, List.length_map] at hcount
      exact Assoc.length_ofPairs_eq_iff.1 (hcount.trans hpairs.symm)
    · intro hnodup
      rw [Assoc.ofPairs_of_nodup hnodup]
      have hvalues : (CallArgs.named (names.zip values)).values = values :=
        List.map_snd_zip hlength
      refine ⟨?_, ?_, ?_⟩
      · rw [CallArgs.length, hvalues]
      · intro index
        rw [CallArgs.at?, hvalues]
      · intro index name value hname hvalue
        refine Assoc.find?_of_mem hnodup (List.mem_iff_getElem?.2 ⟨index, ?_⟩)
        rw [List.getElem?_zip_eq_some]
        exact ⟨hname, hvalue⟩

theorem positional_delivers (values : List (Value β)) :
    (CallArgs.positional values).Delivers [] values where
  length_eq := rfl
  at_eq _ := rfl
  get_eq h := by simp at h

theorem deliver_delivers_iff {names : List String} {values : List (Value β)}
    {received : CallArgs β} (h : deliver names values = .ok received) :
    received.Delivers names values ↔ (names.take values.length).Nodup := by
  unfold deliver at h
  split at h
  · next hnames =>
    cases h
    obtain rfl := List.isEmpty_iff.1 hnames
    simp [positional_delivers]
  · exact bindNames_delivers_iff h

/-- Binding names to an implementation puts the delivery before its call. -/
theorem Implementation.call_bind (run : Runner β) (method : Implementation β)
    (names : List String) (values : List (Value β)) :
    (method.bind names).call run values =
      (deliver names values).bind (fun received => method.invoke run received) := by
  unfold Implementation.bind deliver
  split
  · rfl
  · cases hbound : bindNames names values with
    | error e => simp [call, invoke, prepare, bindAll, CallArgs.values, hbound, Except.bind]
    | ok received => simp [call, invoke, prepare, bindAll, CallArgs.values, hbound, Except.bind]

/-- DELIVERY: a selected call hands the values, filled up, to the implementation declared for the
selected entry, under the names of its signature. If they can be bound at all, each of them arrives
at its place and under its name exactly if the names up to the last value are pairwise different. -/
theorem call_delivers_iff {engine : Engine β} {d : Description β} {r : Resolver β}
    {args : List (Value β)} {s : Selection β} (hstages : engine.stages = Stage.standard)
    (h : engine.compile d = .ok r) (hs : r.select args = .ok s) :
    ∃ entry method signature, d.find? s.entry.source = some entry ∧
      entry.target = .method method ∧
      Signature.read (entry.signatureText s.entry.source) = .ok signature ∧
      (∀ run, r.call run args =
        (deliver signature.paramNames (args ++ s.padding)).bind
          (fun received => method.invoke run received)) ∧
      ∀ received, deliver signature.paramNames (args ++ s.padding) = .ok received →
        (received.Delivers signature.paramNames (args ++ s.padding) ↔
          (signature.paramNames.take (args ++ s.padding).length).Nodup) := by
  obtain ⟨planned, hplan, claims, _, ht⟩ := Engine.compile_eq_ok h
  have hd := Engine.plan_standard hstages hplan
  obtain ⟨entry, method, signature, hentry, htarget, hread, himplementation, _⟩ :=
    hd.provides ht (Resolver.select_mem hs)
  refine ⟨entry, method, signature, hentry, htarget, hread, ?_, fun _ => deliver_delivers_iff⟩
  intro run
  rw [Resolver.call, hs]
  dsimp only
  rw [himplementation, Implementation.call_bind]

/-- An overload with names for both of its positions. -/
def namedOptions : Description Unit :=
  .ofOverloads [⟨"[string:text] [object:options]?", [.null, .object []], ⟨"f", 0, [], ()⟩⟩]

theorem call_delivers_iff_namedOptions : ∃ r s received,
    Engine.standard.compile namedOptions = .ok r ∧ r.select [.string "a"] = .ok s ∧
    deliver ["text", "options"] ([.string "a"] ++ s.padding) = .ok received ∧
    received.Delivers ["text", "options"] ([.string "a"] ++ s.padding) ∧
    ∀ run, r.call run [.string "a"] = run () received := by
  obtain ⟨r, hr, h⟩ : ∃ r, Engine.standard.compile namedOptions = .ok r ∧
      (r.select [.string "a"]).toOption.map (fun s => (s.entry.source, s.padding.length)) =
        some ("[string:text] [object:options]?", 1) :=
    exists_ok_of_toOption (by decide +kernel)
  obtain ⟨s, hs, h⟩ := exists_ok_of_toOption h
  obtain ⟨hsource, hpadding⟩ := Prod.ext_iff.1 h
  dsimp only at hsource hpadding
  obtain ⟨entry, method, signature, hentry, htarget, hread, hcall, hdelivers⟩ :=
    call_delivers_iff rfl hr hs
  rw [hsource] at hentry hread
  cases hentry
  cases htarget
  obtain ⟨signature', hread', hnames⟩ :
      ∃ signature, Signature.read "[string:text] [object:options]?" = .ok signature ∧
        signature.paramNames = ["text", "options"] :=
    exists_ok_of_toOption (by decide +kernel)
  obtain rfl := Except.ok.inj (hread'.symm.trans hread)
  rw [hnames] at hcall hdelivers
  have hlength : ([Value.string "a"] ++ s.padding).length = 2 := by
    rw [List.length_append, hpadding]
    rfl
  have hbound : deliver ["text", "options"] ([.string "a"] ++ s.padding) =
      .ok (.named (Assoc.ofPairs (["text", "options"].zip ([.string "a"] ++ s.padding)))) := by
    rw [deliver, if_neg (by decide), bindNames, if_neg (by rw [hlength]; decide)]
  refine ⟨r, s, _, hr, hs, hbound, (hdelivers _ hbound).2 ?_, ?_⟩
  · rw [hlength]
    decide
  · intro run
    rw [hcall, hbound]
    rfl

/-- One name for two positions. -/
def repeatedName : Description Unit :=
  Description.empty.insert "[string:x, string:x]" (.method ⟨"f", 0, [], ()⟩)

/-- Two values come in and one reaches the body. -/
theorem call_loses_value : ∃ r, Engine.standard.compile repeatedName = .ok r ∧
    ∀ run, r.call run [.string "a", .string "b"] = run () (.named [("x", .string "b")]) := by
  obtain ⟨r, hr, h⟩ : ∃ r, Engine.standard.compile repeatedName = .ok r ∧
      (r.select [.string "a", .string "b"]).toOption.map
        (fun s => (s.entry.implementation.binders, s.padding.length)) = some ([["x", "x"]], 0) :=
    exists_ok_of_toOption (by decide +kernel)
  obtain ⟨s, hs, h⟩ := exists_ok_of_toOption h
  obtain ⟨hbinders, hpadding⟩ := Prod.ext_iff.1 h
  dsimp only at hbinders hpadding
  refine ⟨r, hr, ?_⟩
  intro run
  rw [Resolver.call, hs]
  dsimp only
  rw [List.length_eq_zero_iff.1 hpadding, List.append_nil, Implementation.call,
    Implementation.invoke, Implementation.prepare, hbinders]
  rfl

end ShapeDispatch
