import ShapeDispatch.Classifier.Plan
import ShapeDispatch.Resolver

/-!
Bodies as data: what an implementation can do when nothing but a description is given. A body may
call a function that it receives and may dispatch to a compiled description, so bodies, values and
tables contain each other. `Body.run` ends on every call, because what runs next is always a part of
the body and of the values at hand (`select_weight_lt`, `bindAll_weight_le`).
-/

namespace ShapeDispatch

/-- What an implementation does with its arguments. -/
inductive Body where
  /-- Gives back the arguments as one value. -/
  | arguments
  /-- Gives back the values of the arguments as an array. -/
  | values
  /-- Gives back a text and the arguments as one value. -/
  | echo (text : String)
  /-- Gives back the argument of that name. -/
  | get (name : String)
  /-- Gives back the argument at a position. -/
  | nth (index : Nat)
  /-- Gives back the number of arguments and whether there is none. -/
  | count
  | constant (value : Value Body)
  | fail (message : String)
  /-- Calls the function that comes first with the rest of the arguments. -/
  | apply
  /-- Dispatches the values of the arguments to what a table leads to. -/
  | dispatch (table : DispatchTable Body) (classifier : ClassifierPlan)
  /-- Gives back the message of a failure instead of failing. -/
  | recovering (body : Body)

namespace Body

/-- The size of all values together. -/
noncomputable def weight : List (Value Body) → Nat
  | [] => 0
  | v :: rest => sizeOf v + weight rest

theorem weight_append (as bs : List (Value Body)) : weight (as ++ bs) = weight as + weight bs := by
  induction as with
  | nil => simp [weight]
  | cons a as ih =>
    rw [List.cons_append, weight, weight, ih]
    omega

theorem weight_lt_sizeOf (values : List (Value Body)) : weight values < sizeOf values := by
  induction values with
  | nil => simp [weight]
  | cons v rest ih =>
    rw [weight, List.cons.sizeOf_spec]
    omega

theorem weight_drop_le (n : Nat) (values : List (Value Body)) :
    weight (values.drop n) ≤ weight values := by
  have h : weight (values.take n ++ values.drop n) = weight values := by
    rw [List.take_append_drop]
  rw [weight_append] at h
  omega

/-- Storing a field adds its value at most. -/
theorem weight_insert_le (name : String) (v : Value Body) (fields : Record Body) :
    weight ((Assoc.insert name v fields).map Prod.snd) ≤
      weight (fields.map Prod.snd) + sizeOf v := by
  induction fields with
  | nil => simp [Assoc.insert, weight]
  | cons field rest ih =>
    obtain ⟨name', v'⟩ := field
    rw [Assoc.insert]
    split
    · simp only [List.map_cons, weight]
      omega
    · simp only [List.map_cons, weight]
      omega

theorem weight_foldl_le (pairs fields : Record Body) :
    weight ((pairs.foldl (fun m p => Assoc.insert p.1 p.2 m) fields).map Prod.snd) ≤
      weight (fields.map Prod.snd) + weight (pairs.map Prod.snd) := by
  induction pairs generalizing fields with
  | nil => simp [weight]
  | cons pair rest ih =>
    have h := ih (Assoc.insert pair.1 pair.2 fields)
    have h' := weight_insert_le pair.1 pair.2 fields
    simp only [List.foldl_cons, List.map_cons, weight]
    omega

theorem weight_zip_le (names : List String) (values : List (Value Body)) :
    weight ((names.zip values).map Prod.snd) ≤ weight values := by
  induction names generalizing values with
  | nil => simp [weight]
  | cons name rest ih =>
    cases values with
    | nil => simp [weight]
    | cons v vs =>
      have h := ih vs
      simp only [List.zip_cons_cons, List.map_cons, weight]
      omega

theorem bindNames_weight_le {names : List String} {values : List (Value Body)}
    {bound : CallArgs Body} (h : bindNames names values = .ok bound) :
    weight bound.values ≤ weight values := by
  unfold bindNames at h
  split at h
  · cases h
  · cases h
    have h₁ := weight_foldl_le (names.zip values) []
    have h₂ := weight_zip_le names values
    simp only [CallArgs.values, Assoc.ofPairs]
    simp only [weight, List.map_nil] at h₁
    omega

/-- Binding names adds no value. -/
theorem bindAll_weight_le {binders : List (List String)} {args prepared : CallArgs Body}
    (h : bindAll binders args = .ok prepared) : weight prepared.values ≤ weight args.values := by
  induction binders generalizing args with
  | nil =>
    cases h
    exact Nat.le_refl _
  | cons names rest ih =>
    unfold bindAll at h
    split at h
    · cases h
    · next bound hb => exact Nat.le_trans (ih h) (bindNames_weight_le hb)

theorem entry_weight_lt {t : DispatchTable Body} {e : ResolvedEntry Body} (h : e ∈ t.entries)
    (n : Nat) : sizeOf e.implementation.body + weight (e.paddingBehind n) < sizeOf t := by
  have h₁ := List.sizeOf_lt_of_mem h
  have h₂ := weight_drop_le n e.defaults
  have h₃ := weight_lt_sizeOf e.defaults
  obtain ⟨keys, entries, padded, collisions⟩ := t
  obtain ⟨id, source, ⟨label, identity, binders, body⟩, names, defaults, tokens⟩ := e
  simp only [DispatchTable.mk.sizeOf_spec, ResolvedEntry.mk.sizeOf_spec,
    Implementation.mk.sizeOf_spec, ResolvedEntry.paddingBehind] at *
  omega

theorem select_weight_lt {table : DispatchTable Body} {classifier : Classifier Body}
    {args : List (Value Body)} {s : Selection Body}
    (h : Resolver.select ⟨table, classifier⟩ args = .ok s) :
    sizeOf s.entry.implementation.body + weight (args ++ s.padding) <
      sizeOf table + weight args := by
  have hlt : _ < sizeOf table := entry_weight_lt (Resolver.select_mem h) args.length
  rw [weight_append, Resolver.select_padding h]
  omega

/-- Runs a body. -/
def run (body : Body) (args : CallArgs Body) : Except DispatchError (Value Body) :=
  match body with
  | arguments => .ok args.toValue
  | values => .ok (.array args.values)
  | echo text => .ok (.array [.string text, args.toValue])
  | get name => .ok ((args.get? name).getD .undefined)
  | nth index => .ok ((args.at? index).getD .undefined)
  | count => .ok (.array [.number args.length.toFloat, .bool args.isEmpty])
  | constant value => .ok value
  | fail message => .error (.failed message)
  | apply =>
    match _hv : args.values with
    | .function implementation :: rest =>
      match _hp : implementation.prepare (.positional rest) with
      | .error e => .error e
      | .ok prepared => run implementation.body prepared
    | _ => .error (.failed "not a function")
  | dispatch table classifier =>
    match _hs : Resolver.select ⟨table, classifier.build⟩ args.values with
    | .error e => .error e
    | .ok s =>
      match _hp : s.entry.implementation.prepare (.positional (args.values ++ s.padding)) with
      | .error e => .error e
      | .ok prepared => run s.entry.implementation.body prepared
  | recovering body =>
    match run body args with
    | .ok value => .ok value
    | .error e => .ok (.string e.message)
termination_by sizeOf body + weight args.values
decreasing_by
  · have h := bindAll_weight_le _hp
    rw [_hv]
    obtain ⟨label, identity, binders, body⟩ := implementation
    simp only [weight, CallArgs.values, Value.function.sizeOf_spec,
      Implementation.mk.sizeOf_spec] at *
    omega
  · have h := bindAll_weight_le _hp
    have h' := select_weight_lt _hs
    simp only [CallArgs.values, dispatch.sizeOf_spec] at *
    omega
  · simp only [recovering.sizeOf_spec]
    omega

/-- A dispatching body does what its resolver does with the values. -/
theorem run_dispatch (table : DispatchTable Body) (classifier : ClassifierPlan)
    (args : CallArgs Body) :
    run (dispatch table classifier) args =
      Resolver.call run ⟨table, classifier.build⟩ args.values := by
  rw [run, Resolver.call]
  split <;> rename_i h <;> rw [h]
  simp only [Implementation.call, Implementation.invoke]
  split <;> rename_i h' <;> rw [h']

end Body

/-- A resolver whose classifier is known as data, so that a body can hold it. -/
structure EmbeddableResolver where
  table : DispatchTable Body
  classifier : ClassifierPlan

namespace EmbeddableResolver

def toResolver (r : EmbeddableResolver) : Resolver Body := ⟨r.table, r.classifier.build⟩

/-- The implementation that dispatches to the resolver. -/
def toImplementation (r : EmbeddableResolver) (identity : Nat) : Implementation Body :=
  ⟨"overload", identity, [], .dispatch r.table r.classifier⟩

end EmbeddableResolver

end ShapeDispatch
