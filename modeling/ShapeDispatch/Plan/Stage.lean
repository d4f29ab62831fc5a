import ShapeDispatch.Plan.Synonyms

/-!
Stages: the steps that planned entries go through before a table is built from them. Each engine has a
list of its own; the standard one names the parameters, then expands optional groups, then expands
alternatives. A stage takes a list of entries to another one; `Synonyms.replaceInPlace` is the synonym
stage over entries that are a state, which also shows what a failure leaves behind.
-/

namespace ShapeDispatch

/-- A step of compilation. -/
inductive Stage (β : Type) where
  | bindNames
  | expandOptionalGroups
  | expandAlternatives
  | tokenSynonyms (synonyms : Synonyms)
  /-- A step of the author's own. -/
  | custom (name : String)
      (change : List (PlannedEntry β) → Except CompileError (List (PlannedEntry β)))

namespace PlannedEntry
variable {β : Type}

/-- Takes the names from the signature. -/
def bindNames (e : PlannedEntry β) : PlannedEntry β :=
  { e with paramNames := e.signature.paramNames }

/-- Replaces the shapes by one for every number of optional groups. -/
def expandOptionalGroups (e : PlannedEntry β) : PlannedEntry β :=
  { e with shapes := e.signature.shapes }

/-- Replaces each shape by the shapes of the keys that it stands for. -/
def expandAlternatives (e : PlannedEntry β) : PlannedEntry β :=
  { e with shapes := e.shapes.flatMap (fun shape => (Shape.keys shape).map Shape.ofKey) }

end PlannedEntry

namespace Stage
variable {β : Type}

/-- The name of a stage, as errors give it. -/
def name : Stage β → String
  | bindNames => "bind-names"
  | expandOptionalGroups => "expand-optional-groups"
  | expandAlternatives => "expand-alternatives"
  | tokenSynonyms _ => "token-synonyms"
  | custom name _ => name

/-- What a stage says of a synonym whose result is replaced in turn. -/
def chainError (stage : Stage β) (before after : String) : CompileError :=
  .stage stage.name
    ("synonym `" ++ before ++ "` maps to `" ++ after ++ "`, which is itself rewritten")

/-- Takes the planned entries through a stage. Synonyms must not be chained. -/
def run (stage : Stage β) (entries : List (PlannedEntry β)) :
    Except CompileError (List (PlannedEntry β)) :=
  match stage with
  | bindNames => .ok (entries.map PlannedEntry.bindNames)
  | expandOptionalGroups => .ok (entries.map PlannedEntry.expandOptionalGroups)
  | expandAlternatives => .ok (entries.map PlannedEntry.expandAlternatives)
  | tokenSynonyms synonyms =>
    match synonyms.chained? with
    | some (before, after) => .error (stage.chainError before after)
    | none => .ok (entries.map synonyms.replaceEntry)
  | custom _ change => change entries

/-- Runs stages in order. -/
def runAll (stages : List (Stage β)) (entries : List (PlannedEntry β)) :
    Except CompileError (List (PlannedEntry β)) :=
  stages.foldlM (fun entries stage => stage.run entries) entries

/-- The stages of an engine that is given none. -/
def standard : List (Stage β) := [bindNames, expandOptionalGroups, expandAlternatives]

/-- A stage that changes the shapes of every entry. -/
def onShapes (name : String) (change : List Shape → List Shape) : Stage β :=
  custom name (fun entries => .ok (entries.map (fun e => { e with shapes := change e.shapes })))

/-- A stage that accepts no entry. -/
def refusing (name message : String) : Stage β :=
  custom name (fun entries =>
    if entries.isEmpty then .ok entries else .error (.stage name message))

end Stage

/-- Replaces tokens in place, one entry after the other, unless synonyms are chained. A failure leaves
the entries as they are by then. -/
def Synonyms.replaceInPlace {β : Type} (synonyms : Synonyms) :
    EStateM CompileError (List (PlannedEntry β)) Unit := do
  if let some (before, after) := synonyms.chained? then
    throw ((Stage.tokenSynonyms synonyms : Stage β).chainError before after)
  for position in List.range (← get).length do
    modify (fun entries => entries.modify position synonyms.replaceEntry)

end ShapeDispatch
