import ShapeDispatch.Key
import ShapeDispatch.Text.Quoted
import ShapeDispatch.Value.Basic

/-!
Classification: an ordered list of rules maps a value to a type token, and the first rule that matches
wins. A rule asks for an exact constructor or tests a predicate. Rules that are registered keep the
constructor rules in front of the predicates.
-/

namespace ShapeDispatch

/-- A test of a value, given the general name of its type and its constructor. -/
abbrev Predicate (β : Type) := Value β → String → Option Constructor → Bool

/-- A rule that assigns a token. -/
inductive ClassifierRule (β : Type) where
  /-- To the values that exactly this constructor built. -/
  | exact (token : String) (wanted : Constructor)
  /-- To the values that pass the test. -/
  | predicate (token : String) (test : Predicate β)

namespace Constructor

/-- The text that shows a constructor to a developer. -/
def debugText : Constructor → String
  | string => "String"
  | number => "Number"
  | boolean => "Boolean"
  | date => "Date"
  | regexp => "RegExp"
  | function => "Function"
  | array => "Array"
  | arguments => "Arguments"
  | object => "Object"
  | named name => "Named(" ++ Text.quoted name ++ ")"

end Constructor

namespace ClassifierRule
variable {β : Type}

/-- The token that the rule assigns. -/
def token : ClassifierRule β → String
  | exact token _ => token
  | predicate token _ => token

def isExact : ClassifierRule β → Bool
  | exact _ _ => true
  | predicate _ _ => false

/-- Whether the rule matches a value of this type name and constructor. -/
def holds (rule : ClassifierRule β) (value : Value β) (typeName : String)
    (constructor? : Option Constructor) : Bool :=
  match rule with
  | exact _ wanted => constructor? == some wanted
  | predicate _ test => test value typeName constructor?

/-- Whether the rule matches a value. -/
def isMatch (rule : ClassifierRule β) (value : Value β) : Bool :=
  rule.holds value value.typeName value.constructor?

/-- The text that shows a rule to a developer; a predicate cannot be shown. -/
def debugText : ClassifierRule β → String
  | exact token wanted =>
    "Constructor \x7b token: " ++ Text.quoted token ++ ", constructor: " ++ wanted.debugText ++ " \x7d"
  | predicate token _ => "Predicate \x7b token: " ++ Text.quoted token ++ ", .. \x7d"

end ClassifierRule

/-- An ordered list of rules. -/
structure Classifier (β : Type) where
  rules : List (ClassifierRule β)

/-- Puts a rule behind the last constructor rule. -/
def insertBehindExact {β : Type} (rule : ClassifierRule β) :
    List (ClassifierRule β) → List (ClassifierRule β)
  | [] => [rule]
  | r :: rest =>
    if (r :: rest).any ClassifierRule.isExact then r :: insertBehindExact rule rest
    else rule :: r :: rest

namespace Classifier
variable {β : Type}

/-- The classifier without rules. -/
def empty : Classifier β := ⟨[]⟩

/-- Adds a rule: a constructor rule behind the last one there is, a predicate at the end. -/
def register (c : Classifier β) (rule : ClassifierRule β) : Classifier β :=
  if rule.isExact then ⟨insertBehindExact rule c.rules⟩ else ⟨c.rules ++ [rule]⟩

/-- Adds a rule in front of all others. -/
def registerFront (c : Classifier β) (rule : ClassifierRule β) : Classifier β :=
  ⟨rule :: c.rules⟩

/-- The token that a host object reports by itself. -/
def reportedToken? : Value β → Option String
  | .host _ _ _ tag => tag
  | .undefined => some "undefined"
  | _ => none

/-- The type token of a value: the one it reports, else the first matching rule's, else the general
name of its type. Undefined is never matched against rules. -/
def classify (c : Classifier β) (value : Value β) : String :=
  match reportedToken? value with
  | some token => token
  | none =>
    match c.rules.find? (fun rule => rule.isMatch value) with
    | some rule => rule.token
    | none => value.typeName

/-- The key of an argument list. -/
def typeKey (c : Classifier β) (args : List (Value β)) : Key := ⟨args.map c.classify⟩

/-- The text that shows a classifier to a developer. -/
def debugText (c : Classifier β) : String :=
  "Classifier \x7b rules: [" ++ ", ".intercalate (c.rules.map ClassifierRule.debugText) ++ "] \x7d"

mutual

/-- Describes a value, showing the elements of lists down to `depth` levels. -/
def describe (c : Classifier β) (depth : Nat) : Value β → String
  | .array items =>
    match depth with
    | 0 => c.classify (.array items)
    | depth + 1 => Text.bracketed (describeItems c depth items)
  | .arguments items =>
    match depth with
    | 0 => c.classify (.arguments items)
    | depth + 1 => Text.bracketed (describeItems c depth items)
  | value => c.classify value

/-- Describes the values of a list. -/
def describeItems (c : Classifier β) (depth : Nat) : List (Value β) → List String
  | [] => []
  | item :: rest => describe c depth item :: describeItems c depth rest

end

/-- Whether the value's token is one of `tokens`. -/
def isType (c : Classifier β) (value : Value β) (tokens : List String) : Bool :=
  tokens.contains (c.classify value)

end Classifier

end ShapeDispatch
