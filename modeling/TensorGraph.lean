import TensorGraph.Arena
import TensorGraph.Binary32
import TensorGraph.CommandLine.Arguments
import TensorGraph.CommandLine.LogFormat
import TensorGraph.CommandLine.Program
import TensorGraph.Decimal.Layout
import TensorGraph.Decimal.Shortest
import TensorGraph.Digest.Blake3
import TensorGraph.Digest.Word
import TensorGraph.Error
import TensorGraph.Evaluation.Basic
import TensorGraph.Evaluation.Kernel
import TensorGraph.Graph.Basic
import TensorGraph.Graph.Builder
import TensorGraph.Graph.Dependency
import TensorGraph.Graph.Edit
import TensorGraph.Graph.Id
import TensorGraph.Graph.Listing
import TensorGraph.Graph.Order
import TensorGraph.Graph.Validity
import TensorGraph.Guarded.Basic
import TensorGraph.Guarded.Build
import TensorGraph.Guarded.Conversion
import TensorGraph.Guarded.Evaluation
import TensorGraph.Guarded.Kernel
import TensorGraph.Guarded.Window
import TensorGraph.Json.Fault
import TensorGraph.Json.Printer
import TensorGraph.Json.Reader
import TensorGraph.Json.Value
import TensorGraph.Lowering.Artifact
import TensorGraph.Lowering.Backend
import TensorGraph.Lowering.Device
import TensorGraph.Lowering.Document
import TensorGraph.Lowering.Generation
import TensorGraph.Lowering.Portable
import TensorGraph.Lowering.Table
import TensorGraph.Lowering.Weights
import TensorGraph.Main
import TensorGraph.Operator.Activation
import TensorGraph.Operator.Arity
import TensorGraph.Operator.Kind
import TensorGraph.Operator.OutputShape
import TensorGraph.Optimizer
import TensorGraph.Pass.Basic
import TensorGraph.Pass.Canonical
import TensorGraph.Pass.DeadCode
import TensorGraph.Pass.Folding
import TensorGraph.Pass.Fusion
import TensorGraph.Pass.Merging
import TensorGraph.Proofs.Decimal.Finite
import TensorGraph.Proofs.Decimal.Layout
import TensorGraph.Proofs.Edit.Operators
import TensorGraph.Proofs.Edit.Run
import TensorGraph.Proofs.Edit.Variables
import TensorGraph.Proofs.Evaluation.Assignment
import TensorGraph.Proofs.Evaluation.Exact
import TensorGraph.Proofs.Evaluation.Grid
import TensorGraph.Proofs.Evaluation.Inputs
import TensorGraph.Proofs.Evaluation.Kernel
import TensorGraph.Proofs.Evaluation.Maximum
import TensorGraph.Proofs.Evaluation.Operator
import TensorGraph.Proofs.Evaluation.Recipe
import TensorGraph.Proofs.Evaluation.Reordering
import TensorGraph.Proofs.Evaluation.Restriction
import TensorGraph.Proofs.Evaluation.Run
import TensorGraph.Proofs.Evaluation.Solution
import TensorGraph.Proofs.Graph.Cycle
import TensorGraph.Proofs.Graph.Dependency
import TensorGraph.Proofs.Graph.Failure
import TensorGraph.Proofs.Graph.LeastOrder
import TensorGraph.Proofs.Graph.Linked
import TensorGraph.Proofs.Graph.Order
import TensorGraph.Proofs.Graph.Reachable
import TensorGraph.Proofs.Graph.Sound
import TensorGraph.Proofs.Graph.Source
import TensorGraph.Proofs.Graph.Validation
import TensorGraph.Proofs.Guarded.Basic
import TensorGraph.Proofs.Guarded.Build
import TensorGraph.Proofs.Guarded.Conversion
import TensorGraph.Proofs.Guarded.Evaluation
import TensorGraph.Proofs.Guarded.Kernel
import TensorGraph.Proofs.Guarded.Optimizer
import TensorGraph.Proofs.Guarded.Window
import TensorGraph.Proofs.Json.Numeral
import TensorGraph.Proofs.Json.Reading
import TensorGraph.Proofs.Json.RoundTrip
import TensorGraph.Proofs.Lists
import TensorGraph.Proofs.Lowering.CanonicalPooling
import TensorGraph.Proofs.Lowering.Coverage
import TensorGraph.Proofs.Lowering.Dispatch
import TensorGraph.Proofs.Lowering.Execution
import TensorGraph.Proofs.Lowering.Generation
import TensorGraph.Proofs.Lowering.History
import TensorGraph.Proofs.Lowering.Layout
import TensorGraph.Proofs.Lowering.Literals
import TensorGraph.Proofs.Lowering.Outcome
import TensorGraph.Proofs.Lowering.Packing
import TensorGraph.Proofs.Lowering.Placement
import TensorGraph.Proofs.Lowering.Sharing
import TensorGraph.Proofs.Meaning.Activation
import TensorGraph.Proofs.Meaning.Canonical
import TensorGraph.Proofs.Meaning.Chain
import TensorGraph.Proofs.Meaning.DeadCode
import TensorGraph.Proofs.Meaning.Folding
import TensorGraph.Proofs.Meaning.Fusion
import TensorGraph.Proofs.Meaning.Merging
import TensorGraph.Proofs.Meaning.Refinement
import TensorGraph.Proofs.Operator.OutputShape
import TensorGraph.Proofs.Operator.Scalars
import TensorGraph.Proofs.Operator.Windows
import TensorGraph.Proofs.Optimizer.Calls
import TensorGraph.Proofs.Optimizer.Contract
import TensorGraph.Proofs.Optimizer.Fixpoint
import TensorGraph.Proofs.Optimizer.Parameters
import TensorGraph.Proofs.Optimizer.Reports
import TensorGraph.Proofs.Optimizer.Rounds
import TensorGraph.Proofs.Pass.Canonical
import TensorGraph.Proofs.Pass.Collapse
import TensorGraph.Proofs.Pass.DeadCode
import TensorGraph.Proofs.Pass.Folding
import TensorGraph.Proofs.Pass.Fusion
import TensorGraph.Proofs.Pass.Merging
import TensorGraph.Proofs.Pass.Report
import TensorGraph.Proofs.Pass.Sweep
import TensorGraph.Proofs.Pass.Work
import TensorGraph.Proofs.Shader.Agreement
import TensorGraph.Proofs.Shader.Entry
import TensorGraph.Proofs.Shader.Lines
import TensorGraph.Proofs.Shader.Literals
import TensorGraph.Proofs.Shader.Pooling
import TensorGraph.Proofs.Shader.Range
import TensorGraph.Proofs.Shader.Reading
import TensorGraph.Proofs.Shader.Straight
import TensorGraph.Proofs.Shader.Unrolled
import TensorGraph.Proofs.Shader.Window
import TensorGraph.Proofs.Tensor.Window
import TensorGraph.Proofs.Trace.Acceptance
import TensorGraph.Proofs.Trace.Conversion
import TensorGraph.Proofs.Trace.Kind
import TensorGraph.Proofs.Trace.NodeOrder
import TensorGraph.Proofs.Trace.NullParameter
import TensorGraph.Proofs.Trace.RoundTrip
import TensorGraph.Proofs.Trace.WellFormed
import TensorGraph.Scalar
import TensorGraph.Shader.Code
import TensorGraph.Shader.Kernel
import TensorGraph.Shader.Name
import TensorGraph.Storage.Basic
import TensorGraph.Storage.Directory
import TensorGraph.Storage.Volume
import TensorGraph.Tensor.FilterLayout
import TensorGraph.Tensor.Shape
import TensorGraph.Tensor.Window
import TensorGraph.Text.Hex
import TensorGraph.Text.Printable
import TensorGraph.Trace.Basic
import TensorGraph.Trace.Conversion
import TensorGraph.Trace.Document
import TensorGraph.Trace.Parameter
