import ShapeDispatch.Body
import ShapeDispatch.Call
import ShapeDispatch.Classifier.Basic
import ShapeDispatch.Classifier.Plan
import ShapeDispatch.Config
import ShapeDispatch.Decimal.Binary64
import ShapeDispatch.Decimal.Shortest
import ShapeDispatch.Description
import ShapeDispatch.DescriptionFile
import ShapeDispatch.Engine
import ShapeDispatch.Inspect.Arguments
import ShapeDispatch.Inspect.Help
import ShapeDispatch.Inspect.Run
import ShapeDispatch.Json.Basic
import ShapeDispatch.Json.Number
import ShapeDispatch.Json.Reader
import ShapeDispatch.Main
import ShapeDispatch.OrderedMap
import ShapeDispatch.Plan.Basic
import ShapeDispatch.Plan.Stage
import ShapeDispatch.Proofs.Acceptance
import ShapeDispatch.Proofs.Aliases
import ShapeDispatch.Proofs.Binding
import ShapeDispatch.Proofs.Building
import ShapeDispatch.Proofs.Claiming
import ShapeDispatch.Proofs.Collisions
import ShapeDispatch.Proofs.Coverage
import ShapeDispatch.Proofs.Defaults
import ShapeDispatch.Proofs.Delivery
import ShapeDispatch.Proofs.Describing
import ShapeDispatch.Proofs.Distinctness
import ShapeDispatch.Proofs.Expansion
import ShapeDispatch.Proofs.Extending
import ShapeDispatch.Proofs.Faults
import ShapeDispatch.Proofs.Indexing
import ShapeDispatch.Proofs.KeyText
import ShapeDispatch.Proofs.Limits
import ShapeDispatch.Proofs.Loading
import ShapeDispatch.Proofs.Nesting
import ShapeDispatch.Proofs.OrderedMap
import ShapeDispatch.Proofs.Orphans
import ShapeDispatch.Proofs.Padding
import ShapeDispatch.Proofs.Planning
import ShapeDispatch.Proofs.Policies
import ShapeDispatch.Proofs.Registering
import ShapeDispatch.Proofs.Rendering
import ShapeDispatch.Proofs.Reordering
import ShapeDispatch.Proofs.Replacing
import ShapeDispatch.Proofs.Routing
import ShapeDispatch.Proofs.Stages
import ShapeDispatch.Proofs.Synonyms
import ShapeDispatch.Shape
import ShapeDispatch.Shared
import ShapeDispatch.Signature.Reader
import ShapeDispatch.Text.Quoted
import ShapeDispatch.Toml.Basic
import ShapeDispatch.Toml.Reader
import ShapeDispatch.Value.Basic
import ShapeDispatch.Value.Display
import ShapeDispatch.Value.Equality
