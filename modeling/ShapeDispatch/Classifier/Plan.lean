import ShapeDispatch.Classifier.Standard

/-!
Classifiers as data: a plan names the rules to start from and the rules to add, with tests from a
fixed vocabulary. A compiled overload can be stored in a value only if its classifier is known this
way.
-/

namespace ShapeDispatch

/-- A test of a value. -/
inductive ValueTest where
  /-- The property exists. -/
  | has (property : String)
  /-- The property exists and counts as true. -/
  | truthy (property : String)
  /-- The value itself counts as true. -/
  | selfTruthy
  | responds (method : String)
  | typeName (name : String)
  | builtBy (wanted : Constructor)
  | unconstructed
  /-- A list with exactly this many elements. -/
  | elements (count : Nat)
  /-- A finite number without a fractional part. -/
  | integer
  | always
  | not (test : ValueTest)
  | all (tests : List ValueTest)

namespace ValueTest
variable {β : Type}

/-- Whether a value is a finite number without a fractional part. -/
def isInteger : Value β → Bool
  | .number n => n.isFinite && n.floor == n
  | _ => false

mutual

/-- Whether a value passes the test. -/
def holds (value : Value β) (type : String) (constructor? : Option Constructor) : ValueTest → Bool
  | has property => (value.property? property).isSome
  | truthy property => value.hasTruthy property
  | selfTruthy => value.isTruthy
  | responds method => value.respondsTo method
  | typeName name => type == name
  | builtBy wanted => constructor? == some wanted
  | unconstructed => constructor?.isNone
  | elements count => value.elements?.any (fun items => items.length == count)
  | integer => isInteger value
  | always => true
  | not test => !holds value type constructor? test
  | all tests => holdsAll value type constructor? tests

/-- Whether a value passes all tests. -/
def holdsAll (value : Value β) (type : String) (constructor? : Option Constructor) :
    List ValueTest → Bool
  | [] => true
  | test :: rest => holds value type constructor? test && holdsAll value type constructor? rest

end

/-- The test as a predicate of a rule. -/
def toPredicate (test : ValueTest) : Predicate β :=
  fun value type constructor? => holds value type constructor? test

end ValueTest

/-- A rule as data. -/
inductive PlannedRule where
  | exact (token : String) (wanted : Constructor)
  | tested (token : String) (test : ValueTest)

/-- The rule that is meant. -/
def PlannedRule.toRule {β : Type} : PlannedRule → ClassifierRule β
  | exact token wanted => .exact token wanted
  | tested token test => .predicate token test.toPredicate

/-- Where a planned rule goes. -/
inductive RulePlace where
  | registered | front

/-- A classifier as data: the rules to start from, then the rules to add in order. -/
structure ClassifierPlan where
  standard : Bool
  additions : List (RulePlace × PlannedRule)

namespace ClassifierPlan

/-- The standard classifier. -/
def default : ClassifierPlan := ⟨true, []⟩

/-- The classifier that is meant. -/
def build {β : Type} (plan : ClassifierPlan) : Classifier β :=
  plan.additions.foldl
    (fun c addition =>
      match addition.1 with
      | .registered => c.register addition.2.toRule
      | .front => c.registerFront addition.2.toRule)
    (if plan.standard then Classifier.standard else Classifier.empty)

end ClassifierPlan

end ShapeDispatch
