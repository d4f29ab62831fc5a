import ShapeDispatch.Proofs.Reordering
import ShapeDispatch.Proofs.Rendering
import ShapeDispatch.Proofs.Routing

/-!
The text of a key is read as that key. What this takes is that its tokens are names to the scanner
(`Key.Legible`, `Key.read_render_of_legible`), and the tokens of every key that a signature expands to
are (`Signature.legible_of_mem_expand`). So keys that are shown alike are the same, and an alias may
name the owner of a key by the key's text.
-/

namespace ShapeDispatch

/-- Each token is a name to the scanner: not empty, and without blanks and punctuation. -/
def Key.Legible (key : Key) : Prop := ∀ token ∈ key.tokens, Lexeme.IsName token.toList

/-- One mandatory group that lists the tokens of the key and binds no names. -/
def Key.signature (key : Key) : Signature :=
  ⟨[⟨key.tokens.map Signature.plainParameter, false⟩], none⟩

namespace Signature

theorem spellable_plainParameter {name : String} (h : Lexeme.IsName name.toList) :
    Spellable (plainParameter name) := by
  let l : Lexeme := ⟨.name, ⟨0, 0⟩, name.toList⟩
  have htext : l.text = name := String.ofList_toList
  refine ⟨[l], ?_, ?_⟩
  · rw [plainParameter, ← htext]
    exact .plain rfl
  · intro l' hl' _
    rw [List.mem_singleton.1 hl']
    exact h

theorem isName_text {l : Lexeme} (h : Lexeme.IsName l.chars) : Lexeme.IsName l.text.toList := by
  rwa [Lexeme.text, String.toList_ofList]

theorem SpellsChoices.isName {lexemes : List Lexeme} {names : List String}
    (h : SpellsChoices lexemes names) (hnames : ProperNames lexemes) :
    ∀ name ∈ names, Lexeme.IsName name.toList := by
  induction h with
  | @one a ha =>
    intro name hname
    rw [List.mem_singleton.1 hname]
    exact isName_text (hnames a (by simp) ha)
  | @more lexemes names bar a _ _ ha ih =>
    intro name hname
    rcases List.mem_append.1 hname with hname | hname
    · exact ih hnames.left name hname
    · rw [List.mem_singleton.1 hname]
      exact isName_text (hnames a (by simp) ha)

/-- A position that can be spelled lists names only. -/
theorem Spellable.isName {p : Parameter} (h : Spellable p) :
    ∀ token ∈ p.type.choices, Lexeme.IsName token.toList := by
  obtain ⟨lexemes, hspells, hnames⟩ := h
  cases hspells with
  | plain ha => exact (SpellsChoices.one ha).isName hnames
  | @bound a colon b ha _ _ =>
    have hfirst : ProperNames ([a] ++ [colon, b]) := hnames
    exact (SpellsChoices.one ha).isName hfirst.left
  | alternatives hchoices hbar ha => exact (hchoices.more hbar ha).isName hnames

/-- What a signature that was read expands to has names for tokens. -/
theorem legible_of_mem_expand {text : String} {s : Signature} (h : read text = .ok s) {key : Key}
    (hkey : key ∈ s.expand) : key.Legible := by
  obtain ⟨count, _, hchosen⟩ := (mem_expand_iff (optionalLast_of_read h)).1 hkey
  intro token htoken
  obtain ⟨p, hp, hmem⟩ := exists_mem_of_forall₂ hchosen.flip htoken
  exact (spellable_of_read h p (mem_params_of_mem_positionsWith hp)).isName token hmem

end Signature

namespace Key

theorem params_signature (key : Key) :
    key.signature.params = key.tokens.map Signature.plainParameter := by
  simp [signature, Signature.params]

theorem render_signature (key : Key) : key.signature.render = key.render := by
  have htokens : (key.tokens.map Signature.plainParameter).map Parameter.render = key.tokens := by
    rw [List.map_map]
    exact List.map_id key.tokens
  simp [signature, Signature.render, Group.render, htokens, render]

theorem wellFormed_signature (key : Key) : key.signature.WellFormed where
  optionalLast := List.pairwise_singleton _ _
  distinctChoices := Signature.distinctChoices_plain key.params_signature
  uniform := by
    intro _
    refine .inl fun p hp => ?_
    rw [params_signature] at hp
    obtain ⟨_, _, rfl⟩ := List.mem_map.1 hp
    rfl

theorem expand_signature (key : Key) : key.signature.expand = [key] := by
  have hshapes : key.signature.shapes = [Shape.ofKey key] := by
    simp [signature, Signature.shapes, Signature.mandatory, Signature.shapesBehind, Group.types,
      Shape.ofKey, Signature.plainParameter, Function.comp_def]
  rw [Signature.expand, hshapes, List.flatMap_singleton, Shape.keys_ofKey]

theorem read_render_of_legible {key : Key} (h : key.Legible) :
    Signature.read key.render = .ok key.signature := by
  have hspellable : ∀ p ∈ key.signature.params, Signature.Spellable p := by
    intro p hp
    rw [params_signature] at hp
    obtain ⟨token, htoken, rfl⟩ := List.mem_map.1 hp
    exact Signature.spellable_plainParameter (h token htoken)
  have hspelled : key.signature.SpelledBy (Lexeme.scan key.signature.render.toList) :=
    Signature.spelledBy_rendered (by simp [signature]) hspellable (by simp [signature])
  rw [render_signature] at hspelled
  exact mapError_eq_ok.2 (Signature.ofLexemes_of_spelledBy hspelled key.wellFormed_signature)

theorem spelledKey?_render {key : Key} (h : key.Legible) : spelledKey? key.render = some key :=
  spelledKey?_eq_some_iff.2 ⟨_, read_render_of_legible h, key.expand_signature⟩

theorem eq_of_render_eq {key other : Key} (h : key.Legible) (hother : other.Legible)
    (hsame : key.render = other.render) : key = other := by
  have hspelled := spelledKey?_render h
  rw [hsame, spelledKey?_render hother] at hspelled
  exact (Option.some.inj hspelled).symm

end Key

variable {β : Type}

/-- The text of a key that is owned names the entry declared under that text or, if there is none, the
owner. -/
theorem Description.PlannedAs.findTarget?_render {d : Description β} {planned : List (PlannedEntry β)}
    {owners : OrderedMap Key (Position planned)} {key : Key} {owner : Position planned}
    (h : d.PlannedAs planned) (hkey : key.Legible) (howner : owners.find? key = some owner) :
    ∃ found, findTarget? owners key.render = some found ∧
      (∀ entry, d.find? key.render = some entry → (planned.get found).source = key.render) ∧
      (d.find? key.render = none → found = owner) := by
  cases hposition : positionOf? planned key.render with
  | some i =>
    refine ⟨i, by rw [findTarget?, hposition], fun _ _ => source_of_positionOf? hposition, ?_⟩
    intro hnone
    rw [h.positionOf?_eq_none.2 hnone] at hposition
    cases hposition
  | none =>
    refine ⟨owner, ?_, ?_, fun _ => rfl⟩
    · rw [findTarget?, hposition]
      exact Option.bind_eq_some_iff.2 ⟨key, Key.spelledKey?_render hkey, howner⟩
    · intro entry hentry
      rw [h.positionOf?_eq_none.1 hposition] at hentry
      cases hentry

/-- KEY TEXT: the text of a key whose tokens are names, such as every key that a signature expands to,
is read as one mandatory group of these tokens, which expands to the key alone; so keys that are
shown alike are the same. An alias whose target is the text of a claimed key finds the entry declared
under that text or, if there is none, the owner of the key. -/
theorem Key.text_reads_back :
    (∀ key : Key, key.Legible →
      Signature.read key.render = .ok key.signature ∧ key.signature.expand = [key]) ∧
    (∀ text s, Signature.read text = .ok s → ∀ key ∈ s.expand, key.Legible) ∧
    (∀ key other : Key, key.Legible → other.Legible → key.render = other.render → key = other) ∧
    ∀ (engine : Engine β) (d : Description β) (planned : List (PlannedEntry β))
      (claims : Claims planned), engine.stages = Stage.standard → engine.plan d = .ok planned →
      Claims.all engine.config.collisionPolicy planned = .ok claims →
      ∀ e ∈ planned, ∀ key ∈ e.claimedKeys, ∃ owner found,
        claims.owners.find? key = some owner ∧ findTarget? claims.owners key.render = some found ∧
        (∀ entry, d.find? key.render = some entry → (planned.get found).source = key.render) ∧
        (d.find? key.render = none → found = owner) := by
  refine ⟨fun key h => ⟨read_render_of_legible h, key.expand_signature⟩,
    fun _ _ h _ => Signature.legible_of_mem_expand h, fun _ _ => eq_of_render_eq, ?_⟩
  intro engine d planned claims hs hplan hclaims e he key hkey
  have hd := Engine.plan_standard hs hplan
  obtain ⟨_, _, hstands⟩ := hd.find?_source he
  have hlegible : key.Legible := by
    rw [hstands.claimedKeys_eq] at hkey
    exact Signature.legible_of_mem_expand hstands.read hkey
  obtain ⟨i, rfl⟩ := List.get_of_mem he
  obtain ⟨owner, howner⟩ :=
    (Claims.settled_all hclaims).exists_owner (mem_claimSequence.2 hkey)
  obtain ⟨found, hfound, hdeclared, hspelled⟩ := hd.findTarget?_render hlegible howner
  exact ⟨owner, found, howner, hfound, hdeclared, hspelled⟩

/-- An entry whose text is that of a key which another entry owns. -/
def spelledTwice : Description Unit :=
  (Description.empty.insert "[string|array] [number]?" (.method ⟨"either", 0, [], ()⟩)).insert
    "[array]" (.aliasOf "[string, number]")

theorem Key.text_reads_back_spelledTwice : ∃ planned claims,
    (Engine.settling .firstDeclaredWins).plan spelledTwice = .ok planned ∧
    Claims.all .firstDeclaredWins planned = .ok claims ∧
    (∃ owner found, claims.owners.find? ⟨["array"]⟩ = some owner ∧
      (planned.get owner).source = "[string|array] [number]?" ∧
      findTarget? claims.owners "[array]" = some found ∧ (planned.get found).source = "[array]") ∧
    ∃ owner, claims.owners.find? ⟨["string", "number"]⟩ = some owner ∧
      findTarget? claims.owners "[string, number]" = some owner := by
  obtain ⟨planned, hplan, h⟩ : ∃ planned,
      (Engine.settling .firstDeclaredWins).plan spelledTwice = .ok planned ∧
      (planned.flatMap PlannedEntry.claimedKeys,
        (Claims.all .firstDeclaredWins planned).toOption.map (fun claims =>
          (claims.owners.find? ⟨["array"]⟩).map (fun i => (planned.get i).source))) =
        ([⟨["string"]⟩, ⟨["array"]⟩, ⟨["string", "number"]⟩, ⟨["array", "number"]⟩, ⟨["array"]⟩],
          some (some "[string|array] [number]?")) :=
    exists_ok_of_toOption (by decide +kernel)
  obtain ⟨hkeys, h⟩ := Prod.ext_iff.1 h
  dsimp only at hkeys
  obtain ⟨claims, hclaims, hsource⟩ := exists_ok_of_toOption h
  have hclaimed : ∀ key ∈ planned.flatMap PlannedEntry.claimedKeys, ∃ owner found,
      claims.owners.find? key = some owner ∧ findTarget? claims.owners key.render = some found ∧
      (∀ entry, spelledTwice.find? key.render = some entry →
        (planned.get found).source = key.render) ∧
      (spelledTwice.find? key.render = none → found = owner) := by
    intro key hkey
    obtain ⟨e, he, hkey⟩ := List.mem_flatMap.1 hkey
    exact text_reads_back.2.2.2 (Engine.settling .firstDeclaredWins) _ _ _ rfl hplan hclaims e he
      key hkey
  rw [hkeys] at hclaimed
  refine ⟨planned, claims, hplan, hclaims, ?_, ?_⟩
  · obtain ⟨owner, found, howner, hfound, hdeclared, _⟩ := hclaimed ⟨["array"]⟩ (by simp)
    rw [howner] at hsource
    exact ⟨owner, found, howner, Option.some.inj hsource, hfound, hdeclared _ rfl⟩
  · obtain ⟨owner, found, howner, hfound, _, hspelled⟩ :=
      hclaimed ⟨["string", "number"]⟩ (by simp)
    obtain rfl := hspelled rfl
    exact ⟨found, howner, hfound⟩

end ShapeDispatch
