import ShapeDispatch.Signature.Token

/-!
What can be wrong with signature text, and how it is reported.
-/

namespace ShapeDispatch

/-- What the grammar allows at a place. -/
inductive Expectation where
  | openBracket | typeToken | alternative | name | nextOrClose | groupOrEnd
  deriving DecidableEq, Repr

def Expectation.describe : Expectation → String
  | openBracket => "`[`"
  | typeToken => "a type token"
  | alternative => "an alternative type token"
  | name => "a parameter name"
  | nextOrClose => "`,` or `]`"
  | groupOrEnd => "`[`, `>` or end of signature"

/-- A violation of the grammar or of the conditions on top of it. -/
inductive FaultKind where
  /-- There is no token at all. -/
  | empty
  | unexpected (found : String) (expected : Expectation)
  | unexpectedEnd (expected : Expectation)
  /-- Alternatives and a binding at one position. -/
  | boundAlternation (text : String)
  | duplicateAlternative (token : String)
  /-- Some positions bind a name and some do not. -/
  | mixedBindings
  | mandatoryAfterOptional
  /-- A projection lists something other than plain names. -/
  | invalidProjection
  deriving DecidableEq, Repr

def FaultKind.message : FaultKind → String
  | empty => "signature is empty"
  | unexpected found expected => "unexpected `" ++ found ++ "`, expected " ++ expected.describe
  | unexpectedEnd expected => "unexpected end of signature, expected " ++ expected.describe
  | boundAlternation text => "alternation `" ++ text ++ "` cannot carry a binding"
  | duplicateAlternative token => "alternative `" ++ token ++ "` is listed twice"
  | mixedBindings => "parameters must be either all named or all unnamed"
  | mandatoryAfterOptional => "mandatory group follows an optional group"
  | invalidProjection => "name projection may only list plain names"

/-- A violation and the bytes that it concerns. -/
structure Fault where
  span : Span
  kind : FaultKind
  deriving DecidableEq, Repr

/-- A violation in the text of a signature. -/
structure SignatureError where
  signature : String
  fault : Fault
  deriving DecidableEq, Repr

def SignatureError.message (e : SignatureError) : String :=
  "invalid signature `" ++ e.signature ++ "` at " ++ e.fault.span.start.repr ++ ".." ++
    e.fault.span.stop.repr ++ ": " ++ e.fault.kind.message

end ShapeDispatch
