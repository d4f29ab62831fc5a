import ShapeDispatch.Classifier.Standard
import ShapeDispatch.Plan.Stage
import ShapeDispatch.Resolver
import ShapeDispatch.Table.Build

/-!
Engines: what compilation depends on. An engine plans the entries of a description, runs its stages
over them and builds the table.
-/

namespace ShapeDispatch

/-- A classifier, settings and stages. -/
structure Engine (β : Type) where
  classifier : Classifier β
  config : EngineConfig
  stages : List (Stage β)

namespace Engine
variable {β : Type}

/-- The engine with the standard classifier, settings and stages. -/
def standard : Engine β := ⟨.standard, .default, Stage.standard⟩

/-- The names of the stages, in order. -/
def stageNames (e : Engine β) : List String := e.stages.map Stage.name

/-- The planned entries of a description behind all stages. -/
def plan (e : Engine β) (d : Description β) : Except CompileError (List (PlannedEntry β)) := do
  Stage.runAll e.stages (← d.plan)

/-- The table of a description. -/
def buildTable (e : Engine β) (d : Description β) : Except CompileError (DispatchTable β) := do
  ShapeDispatch.buildTable e.classifier e.config (← e.plan d)

/-- Compiles a description. -/
def compile (e : Engine β) (d : Description β) : Except CompileError (Resolver β) := do
  .ok ⟨← e.buildTable d, e.classifier⟩

/-- The text that shows an engine to a developer. -/
def debugText (e : Engine β) : String :=
  "Engine \x7b classifier: " ++ e.classifier.debugText ++ ", config: " ++ e.config.debugText ++
    ", stages: [" ++ ", ".intercalate (e.stageNames.map Text.quoted) ++ "] \x7d"

end Engine

end ShapeDispatch
