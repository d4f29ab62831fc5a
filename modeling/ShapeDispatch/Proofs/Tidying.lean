import ShapeDispatch.Proofs.Outlines

/-!
Planned entries up to repeated shapes. Who owns a key stays the same when an entry claims the key
again, so entries that differ only in repeated shapes make the same table (`map_buildTable_congr`).
What may differ is the record of collisions, where a claim that is refused is listed each time.
-/

namespace ShapeDispatch
variable {β : Type}

/-- The entry without repeated shapes. -/
def PlannedEntry.tidy (e : PlannedEntry β) : PlannedEntry β :=
  { e with shapes := e.shapes.eraseDups }

/-- What calls can tell of a table. -/
def DispatchTable.withoutCollisions (t : DispatchTable β) : DispatchTable β :=
  { t with collisions := [] }

namespace Claims

section
variable {planned : List (PlannedEntry β)} {policy : CollisionPolicy} {c c' : Claims planned}
  {key : Key} {claimant : Position planned} {shape other : Shape}

/-- A claim stores an owner for its key: the claimant, or the owner before it where the first one
declared wins. -/
theorem owners_of_claim (h : c.claim policy key claimant = .ok c') :
    ∃ owner, c'.owners = c.owners.insert key owner ∧
      (owner = claimant ∨ policy = .firstDeclaredWins) := by
  have hanswer := answer_claim policy c key claimant
  rw [h] at hanswer
  cases hanswer with
  | free _ => exact ⟨claimant, rfl, .inl rfl⟩
  | again hown => exact ⟨claimant, (OrderedMap.insert_of_find? hown).symm, .inl rfl⟩
  | taken _ _ _ => exact ⟨claimant, rfl, .inl rfl⟩
  | @kept owner hpolicy _ _ => exact ⟨owner, rfl, .inr hpolicy⟩

/-- The key of a shape has an owner that a claim by this entry will not change. -/
def Held (policy : CollisionPolicy) (claimant : Position planned) (shape : Shape)
    (c : Claims planned) : Prop :=
  ∃ key owner, Shape.key? shape = some key ∧ c.owners.find? key = some owner ∧
    (owner = claimant ∨ policy = .firstDeclaredWins)

theorem held_of_claimShape (h : c.claimShape policy claimant shape = .ok c') :
    c'.Held policy claimant shape := by
  obtain ⟨key, hkey, hclaim⟩ := claimShape_eq_ok h
  obtain ⟨owner, howners, hkept⟩ := owners_of_claim hclaim
  refine ⟨key, owner, hkey, ?_, hkept⟩
  rw [howners, OrderedMap.find?_insert, if_pos rfl]

theorem Held.claimShape (hheld : c.Held policy claimant shape)
    (h : c.claimShape policy claimant other = .ok c') : c'.Held policy claimant shape := by
  obtain ⟨key, owner, hkey, howner, hkept⟩ := hheld
  obtain ⟨key', _, hclaim⟩ := claimShape_eq_ok h
  obtain ⟨owner', howners, hkept'⟩ := owners_of_claim hclaim
  by_cases hsame : key' = key
  · exact ⟨key, owner', hkey, by rw [howners, OrderedMap.find?_insert, if_pos hsame], hkept'⟩
  · exact ⟨key, owner, hkey, by rw [howners, OrderedMap.find?_insert, if_neg hsame, howner], hkept⟩

theorem held_of_claimShapes {shapes : List Shape}
    (h : shapes.foldlM (fun c shape => claimShape policy c claimant shape) c = .ok c') :
    ∀ shape ∈ shapes, c'.Held policy claimant shape := by
  refine foldlM_ok_inv (fun seen s => ∀ shape ∈ seen, Held policy claimant shape s) [] (by simp)
    ?_ h
  intro seen next rest s s' _ hseen hstep shape hshape
  rcases List.mem_append.1 hshape with hshape | hshape
  · exact (hseen shape hshape).claimShape hstep
  · rw [List.mem_singleton] at hshape
    exact hshape ▸ held_of_claimShape hstep

/-- A claim for a key that is held leaves the owners as they are. -/
theorem Held.idle (hheld : c.Held policy claimant shape) :
    ∃ c', c.claimShape policy claimant shape = .ok c' ∧ c'.owners = c.owners := by
  obtain ⟨key, owner, hkey, howner, hkept⟩ := hheld
  simp only [Claims.claimShape, hkey, claim, howner]
  by_cases hown : owner = claimant
  · rw [if_pos hown]
    exact ⟨c, rfl, rfl⟩
  · obtain rfl := hkept.resolve_left hown
    rw [if_neg hown]
    exact ⟨_, rfl, OrderedMap.insert_of_find? howner⟩

end

end Claims

section
variable {planned planned' : List (PlannedEntry β)} {i : Position planned} {i' : Position planned'}

theorem resolveMethods_map_tidy (classifier : Classifier β) :
    ∀ (planned : List (PlannedEntry β)) (id : Nat),
      resolveMethods classifier id (planned.map PlannedEntry.tidy) =
        resolveMethods classifier id planned
  | [], _ => rfl
  | e :: rest, id => by
    have hmethod : e.tidy.method? = e.method? := rfl
    rw [List.map_cons, resolveMethods, resolveMethods, hmethod]
    cases e.method? with
    | none => exact resolveMethods_map_tidy classifier rest id
    | some implementation =>
      exact congrArg (List.cons _) (resolveMethods_map_tidy classifier rest (id + 1))

/-! ### Two lists of entries that differ only in repeated shapes -/

variable (h : planned.map PlannedEntry.tidy = planned'.map PlannedEntry.tidy)
include h

theorem outline_of_tidy :
    planned.map PlannedEntry.outline = planned'.map PlannedEntry.outline :=
  map_outline_congr (f := PlannedEntry.tidy) (fun _ => rfl) h

namespace Claims
variable {policy : CollisionPolicy} {c : Claims planned} {c' : Claims planned'}

omit h in
/-- Who owns what afterwards has nothing to do with the collisions before. -/
theorem map_claimShape_numbers (c : Claims planned) (shape : Shape) :
    (c.claimShape policy i shape).map numbers =
      (claimShape policy ⟨c.owners, []⟩ i shape).map numbers := by
  unfold claimShape claim
  cases Shape.key? shape with
  | none => rfl
  | some key =>
    cases howner : c.owners.find? key with
    | none =>
      simp only [howner]
      rfl
    | some owner =>
      simp only [howner]
      by_cases howns : owner = i
      · simp only [if_pos howns]
        rfl
      · simp only [if_neg howns]
        cases policy <;> rfl

theorem map_claimShape_congr (hc : c.numbers = c'.numbers) (hi : i.1 = i'.1) (shape : Shape) :
    (c.claimShape policy i shape).map numbers = (c'.claimShape policy i' shape).map numbers := by
  have hrecord : (⟨c.owners, []⟩ : Claims planned).record =
      (⟨c'.owners, []⟩ : Claims planned').record := Prod.ext hc rfl
  have hclaim : (claimShape policy ⟨c.owners, []⟩ i shape).map record =
      (claimShape policy ⟨c'.owners, []⟩ i' shape).map record :=
    map_claimShape_record (outline_of_tidy h) hrecord hi shape
  rw [map_claimShape_numbers c, map_claimShape_numbers c', ← map_fst_record, hclaim,
    map_fst_record]

omit h in
/-- The shapes of an entry may be claimed without the repeated ones. -/
theorem map_claimShapes_eraseDups (claimant : Position planned) (shapes : List Shape)
    (c : Claims planned) :
    (shapes.foldlM (fun c shape => claimShape policy c claimant shape) c).map numbers =
      (shapes.eraseDups.foldlM (fun c shape => claimShape policy c claimant shape) c).map
        numbers := by
  induction shapes using List.reverseRecOn with
  | nil => rfl
  | append_singleton shapes shape ih =>
    rw [foldlM_concat, eraseDups_concat]
    split
    · next hmem =>
      -- the shape was claimed before, so its key is held and the owners stay as they are
      rw [← ih]
      cases hrun : shapes.foldlM (fun c shape => claimShape policy c claimant shape) c with
      | error e => rfl
      | ok before =>
        obtain ⟨after, hstep, howners⟩ := (held_of_claimShapes hrun shape hmem).idle
        change (claimShape policy before claimant shape).map numbers = .ok before.numbers
        rw [hstep]
        exact congrArg (fun owners => Except.ok (owners.mapValues (fun _ i => i.1))) howners
    · rw [foldlM_concat]
      exact map_bind_congr ih (fun s s' hs => map_claimShape_congr rfl hs rfl shape)

theorem map_claimEntry_congr (hc : c.numbers = c'.numbers) (hi : i.1 = i'.1) :
    (c.claimEntry policy i).map numbers = (c'.claimEntry policy i').map numbers := by
  have hshapes : (planned.get i).shapes.eraseDups = (planned'.get i').shapes.eraseDups :=
    (congrArg PlannedEntry.shapes (get_congr h hi) :)
  rw [claimEntry, claimEntry, map_claimShapes_eraseDups i, hshapes, map_claimShapes_eraseDups i']
  exact map_foldlM_congr_left (fun _ _ shape hs => map_claimShape_congr h hs hi shape) _ hc

theorem map_all_congr : (all policy planned).map numbers = (all policy planned').map numbers := by
  refine map_foldlM_congr ?_ (forall₂_finRange (length_eq_of_outline (outline_of_tidy h))) rfl
  intro s s' i i' hi hs
  exact map_claimEntry_congr h hs hi

end Claims

/-- Entries that differ only in repeated shapes make tables that differ only in collisions. -/
theorem map_buildTable_congr (classifier : Classifier β) (config : EngineConfig) :
    (buildTable classifier config planned).map DispatchTable.withoutCollisions =
      (buildTable classifier config planned').map DispatchTable.withoutCollisions := by
  refine map_bind_congr (Claims.map_all_congr h) (fun c c' hc => ?_)
  refine map_bind_congr (map_mapError_congr _ (map_terminals_congr (outline_of_tidy h) hc _))
    (fun ends ends' hends => ?_)
  have hkeys := mapValues_slotOf_congr (outline_of_tidy h) hc hends
  have hentries : resolveMethods classifier 0 planned = resolveMethods classifier 0 planned' := by
    rw [← resolveMethods_map_tidy, h, resolveMethods_map_tidy]
  simp only [hkeys, hentries]
  rfl

end

end ShapeDispatch
