import ShapeDispatch.Signature.Basic
import ShapeDispatch.Signature.Fault

/-!
Reading signatures. Groups do not nest, so the grammar

    Signature ::= Groups ( '>' Groups )?
    Groups    ::= Group+
    Group     ::= '[' ( Token ( ',' Token )* )? ']' '?'?
    Token     ::= NAME | NAME ':' NAME | NAME ( '|' NAME )+

is read by a left fold over the tokens: `Progress.step` takes one token and says where the reader
stands behind it, `Progress.finish` says what the whole text means. The conditions on top of the
grammar are tested where a side of the projection ends.
-/

namespace ShapeDispatch.Signature

/-- A group together with the bytes it covers. -/
structure WrittenGroup where
  group : Group
  span : Span
  deriving DecidableEq, Repr

/-- Where the reader stands inside a group: what it has read of the current position. -/
inductive Slot where
  /-- Just behind the opening bracket. -/
  | opened
  /-- Just behind a comma. -/
  | separated
  /-- Behind the first name of a position. -/
  | typed (first : Lexeme)
  /-- Behind a bar, with the alternatives so far. -/
  | piped (first : Lexeme) (chosen : List String)
  /-- Behind a second or later alternative. -/
  | alternated (first : Lexeme) (chosen : List String)
  /-- Behind a colon. -/
  | coloned (first : Lexeme)
  /-- Behind the name that a position binds. -/
  | bound (first : Lexeme) (name : String)
  deriving DecidableEq, Repr

namespace Slot

/-- The position that is complete here, if one is. -/
def parameter? : Slot → Option Parameter
  | typed first => some ⟨.single first.text, none⟩
  | alternated _ chosen => some ⟨.alternatives chosen, none⟩
  | bound first name => some ⟨.single first.text, some name⟩
  | _ => none

/-- What may follow. -/
def expected : Slot → Expectation
  | opened => .typeToken
  | separated => .typeToken
  | typed _ => .nextOrClose
  | piped _ _ => .alternative
  | alternated _ _ => .nextOrClose
  | coloned _ => .name
  | bound _ _ => .nextOrClose

end Slot

/-- Where the reader stands between two tokens. -/
inductive Place where
  /-- Before the first group of a side. -/
  | fresh
  /-- Inside a group that began at byte `start`, behind the positions `params`. -/
  | inside (start : Nat) (params : List Parameter) (slot : Slot)
  /-- Behind a group. -/
  | closed (last : WrittenGroup)
  deriving DecidableEq, Repr

/-- What has been read so far: the side left of `>` once it is passed, the finished groups of the
current side, and the place. -/
structure Progress where
  left : Option (List WrittenGroup)
  groups : List WrittenGroup
  place : Place
  deriving DecidableEq, Repr

/-- Nothing is read yet. -/
def Progress.start : Progress := ⟨none, [], .fresh⟩

def unexpected {α : Type} (l : Lexeme) (expected : Expectation) : Except Fault α :=
  .error ⟨l.span, .unexpected l.text expected⟩

def unexpectedEnd {α : Type} (source : List Char) (expected : Expectation) : Except Fault α :=
  .error ⟨⟨byteLength source, byteLength source⟩, .unexpectedEnd expected⟩

/-- The alternation from the name `first` to the token `last`, which must not be there. -/
def boundAlternation {α : Type} (source : List Char) (first last : Lexeme) : Except Fault α :=
  let span : Span := ⟨first.span.start, last.span.stop⟩
  .error ⟨span, .boundAlternation (span.slice source)⟩

/-- Takes one token inside a group. -/
def stepInside (source : List Char) (start : Nat) (params : List Parameter) (slot : Slot)
    (l : Lexeme) : Except Fault Place :=
  match slot, slot.parameter?, l.kind with
  | _, some p, .comma => .ok (.inside start (params ++ [p]) .separated)
  | _, some p, .closeBracket => .ok (.closed ⟨⟨params ++ [p], false⟩, ⟨start, l.span.stop⟩⟩)
  | .opened, _, .closeBracket => .ok (.closed ⟨⟨params, false⟩, ⟨start, l.span.stop⟩⟩)
  | .opened, _, .name => .ok (.inside start params (.typed l))
  | .separated, _, .name => .ok (.inside start params (.typed l))
  | .typed first, _, .pipe => .ok (.inside start params (.piped first [first.text]))
  | .typed first, _, .colon => .ok (.inside start params (.coloned first))
  | .piped first chosen, _, .name =>
    if l.text ∈ chosen then .error ⟨l.span, .duplicateAlternative l.text⟩
    else .ok (.inside start params (.alternated first (chosen ++ [l.text])))
  | .alternated first chosen, _, .pipe => .ok (.inside start params (.piped first chosen))
  | .alternated first _, _, .colon => boundAlternation source first l
  | .coloned first, _, .name => .ok (.inside start params (.bound first l.text))
  | .bound first _, _, .pipe => boundAlternation source first l
  | _, _, _ => unexpected l slot.expected

/-- The first mandatory group behind an optional one. -/
def misplaced? : List WrittenGroup → Option WrittenGroup
  | [] => none
  | w :: rest => if w.group.optional then rest.find? (fun v => !v.group.optional) else misplaced? rest

/-- On the left of `>`, optional groups come last. -/
def checkOrder (groups : List WrittenGroup) : Except Fault Unit :=
  match misplaced? groups with
  | some w => .error ⟨w.span, .mandatoryAfterOptional⟩
  | none => .ok ()

/-- The name that a position of a projection lists. -/
def plainName? : Parameter → Option String
  | ⟨.single token, none⟩ => some token
  | _ => none

/-- The names that the groups right of `>` list, all of them plain. -/
def projectedNames : List WrittenGroup → Except Fault (List String)
  | [] => .ok []
  | w :: rest =>
    match w.group.params.mapM plainName? with
    | some names => (projectedNames rest).map (names ++ ·)
    | none => .error ⟨w.span, .invalidProjection⟩

/-- Tests the side of `>` that ends behind `groups`. -/
def checkSide (left : Option (List WrittenGroup)) (groups : List WrittenGroup) :
    Except Fault Unit :=
  match left with
  | none => checkOrder groups
  | some _ => (projectedNames groups).map (fun _ => ())

/-- Takes one token. -/
def Progress.step (source : List Char) (p : Progress) (l : Lexeme) : Except Fault Progress :=
  match p.place with
  | .fresh =>
    if l.kind = .openBracket then .ok { p with place := .inside l.span.start [] .opened }
    else unexpected l .openBracket
  | .inside start params slot =>
    (stepInside source start params slot l).map (fun place => { p with place })
  | .closed last =>
    match l.kind, last.group.optional with
    | .question, false =>
      .ok { p with place := .closed ⟨⟨last.group.params, true⟩, ⟨last.span.start, l.span.stop⟩⟩ }
    | .openBracket, _ =>
      .ok { p with groups := p.groups ++ [last], place := .inside l.span.start [] .opened }
    | kind, _ => do
      checkSide p.left (p.groups ++ [last])
      match kind, p.left with
      | .projection, none => .ok ⟨some (p.groups ++ [last]), [], .fresh⟩
      | _, _ => unexpected l .groupOrEnd

/-- Either every position binds a name or none does. -/
def UniformlyNamed (params : List Parameter) : Prop :=
  params.all (fun p => p.name.isNone) ∨ params.all (fun p => p.name.isSome)

instance (params : List Parameter) : Decidable (UniformlyNamed params) :=
  inferInstanceAs (Decidable (_ ∨ _))

/-- What the whole text means once its last token is taken. -/
def Progress.finish (source : List Char) (p : Progress) : Except Fault Signature :=
  match p.place with
  | .fresh => unexpectedEnd source .openBracket
  | .inside _ _ slot => unexpectedEnd source slot.expected
  | .closed last =>
    let groups := p.groups ++ [last]
    match p.left with
    | some left => do
      let names ← projectedNames groups
      .ok ⟨left.map WrittenGroup.group, some names⟩
    | none => do
      checkOrder groups
      let signature : Signature := ⟨groups.map WrittenGroup.group, none⟩
      if UniformlyNamed signature.params then .ok signature
      else .error ⟨⟨0, byteLength source⟩, .mixedBindings⟩

/-- Reads a signature from its tokens. -/
def ofLexemes (source : List Char) (lexemes : List Lexeme) : Except Fault Signature :=
  if lexemes.isEmpty then .error ⟨⟨0, 0⟩, .empty⟩
  else do
    let p ← lexemes.foldlM (Progress.step source) Progress.start
    p.finish source

/-- Reads a signature. -/
def read (text : String) : Except SignatureError Signature :=
  (ofLexemes text.toList (Lexeme.scan text.toList)).mapError (fun fault => ⟨text, fault⟩)

end ShapeDispatch.Signature
