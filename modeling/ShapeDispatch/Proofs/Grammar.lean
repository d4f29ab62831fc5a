import ShapeDispatch.Signature.Reader

/-!
The grammar of signatures, without a reader. For every rule of

    Signature ::= Groups ( '>' Groups )?
    Groups    ::= Group+
    Group     ::= '[' ( Token ( ',' Token )* )? ']' '?'?
    Token     ::= NAME | NAME ':' NAME | NAME ( '|' NAME )+

a relation says which tokens spell which piece of syntax. `Signature.WellFormed` holds the conditions
on top of the grammar, and `Signature.SpelledBy` puts both together.
-/

namespace ShapeDispatch.Signature

/-- `NAME ( '|' NAME )*` -/
inductive SpellsChoices : List Lexeme → List String → Prop where
  | one {a : Lexeme} : a.kind = .name → SpellsChoices [a] [a.text]
  | more {lexemes : List Lexeme} {names : List String} {bar a : Lexeme} :
    SpellsChoices lexemes names → bar.kind = .pipe → a.kind = .name →
      SpellsChoices (lexemes ++ [bar, a]) (names ++ [a.text])

/-- `Token` -/
inductive SpellsParameter : List Lexeme → Parameter → Prop where
  | plain {a : Lexeme} : a.kind = .name → SpellsParameter [a] ⟨.single a.text, none⟩
  | bound {a colon b : Lexeme} : a.kind = .name → colon.kind = .colon → b.kind = .name →
      SpellsParameter [a, colon, b] ⟨.single a.text, some b.text⟩
  | alternatives {lexemes : List Lexeme} {names : List String} {bar a : Lexeme} :
    SpellsChoices lexemes names → bar.kind = .pipe → a.kind = .name →
      SpellsParameter (lexemes ++ [bar, a]) ⟨.alternatives (names ++ [a.text]), none⟩

/-- `Token ( ',' Token )*` -/
inductive SpellsParameters : List Lexeme → List Parameter → Prop where
  | one {lexemes : List Lexeme} {p : Parameter} :
    SpellsParameter lexemes p → SpellsParameters lexemes [p]
  | more {lexemes last : List Lexeme} {params : List Parameter} {comma : Lexeme} {p : Parameter} :
    SpellsParameters lexemes params → comma.kind = .comma → SpellsParameter last p →
      SpellsParameters (lexemes ++ comma :: last) (params ++ [p])

/-- What `Spells` relates, or nothing. -/
inductive Optionally {α : Type} (Spells : List Lexeme → List α → Prop) :
    List Lexeme → List α → Prop where
  | absent : Optionally Spells [] []
  | present {lexemes : List Lexeme} {items : List α} :
    Spells lexemes items → Optionally Spells lexemes items

/-- `Group` -/
inductive SpellsGroup : List Lexeme → Group → Prop where
  | mandatory {opening closing : Lexeme} {lexemes : List Lexeme} {params : List Parameter} :
    opening.kind = .openBracket → Optionally SpellsParameters lexemes params →
      closing.kind = .closeBracket →
        SpellsGroup (opening :: lexemes ++ [closing]) ⟨params, false⟩
  | optional {lexemes : List Lexeme} {params : List Parameter} {question : Lexeme} :
    SpellsGroup lexemes ⟨params, false⟩ → question.kind = .question →
      SpellsGroup (lexemes ++ [question]) ⟨params, true⟩

/-- `Group+` -/
inductive SpellsGroups : List Lexeme → List Group → Prop where
  | one {lexemes : List Lexeme} {g : Group} : SpellsGroup lexemes g → SpellsGroups lexemes [g]
  | more {lexemes last : List Lexeme} {groups : List Group} {g : Group} :
    SpellsGroups lexemes groups → SpellsGroup last g →
      SpellsGroups (lexemes ++ last) (groups ++ [g])

/-- `Groups ( '>' Groups )?` -/
inductive SpellsSides : List Lexeme → List Group → Option (List Group) → Prop where
  | plain {lexemes : List Lexeme} {left : List Group} :
    SpellsGroups lexemes left → SpellsSides lexemes left none
  | projected {lexemes rest : List Lexeme} {left right : List Group} {arrow : Lexeme} :
    SpellsGroups lexemes left → arrow.kind = .projection → SpellsGroups rest right →
      SpellsSides (lexemes ++ arrow :: rest) left (some right)

/-- A position that lists one token and binds no name. -/
def plainParameter (name : String) : Parameter := ⟨.single name, none⟩

/-- All positions right of `>` are plain names, and these are the names of the projection. -/
inductive Projects : Option (List Group) → Option (List String) → Prop where
  | absent : Projects none none
  | names {right : List Group} {names : List String} :
    right.flatMap Group.params = names.map plainParameter → Projects (some right) (some names)

/-- Behind an optional group there is no mandatory one. -/
def OptionalLast (s : Signature) : Prop :=
  s.groups.Pairwise (fun before behind => before.optional = true → behind.optional = true)

/-- No position lists a token twice. -/
def DistinctChoices (params : List Parameter) : Prop := ∀ p ∈ params, p.type.choices.Nodup

/-- The conditions on a signature on top of the grammar. -/
structure WellFormed (s : Signature) : Prop where
  optionalLast : s.OptionalLast
  distinctChoices : DistinctChoices s.params
  /-- Without a projection all positions bind a name or none does. -/
  uniform : s.projection = none → (∀ p ∈ s.params, p.name = none) ∨ ∀ p ∈ s.params, p.name ≠ none

/-- The tokens spell the signature: its groups stand left of `>` and its projection lists the plain
names right of it. -/
def SpelledBy (s : Signature) (lexemes : List Lexeme) : Prop :=
  ∃ right, SpellsSides lexemes s.groups right ∧ Projects right s.projection

end ShapeDispatch.Signature
