import TensorGraph.Guarded.Evaluation
import TensorGraph.Trace.Conversion

/-!
# TensorGraph.Guarded.Conversion

Graphs from traces in words of 64 bits.

* `toGraph`: the graph of a trace.

A conversion counts the elements of every payload's shape and checks the shapes of every node. All
else is what `TensorGraph.Trace.Conversion` does.
-/

namespace TensorGraph.Guarded

open Conversion (Names)

namespace Conversion

abbrev Step (β : Type) := Run (Graph Binary32) β

/-- Counts the elements that a payload has to have. -/
def countPayload (v : TracedVariable) : Guarded Unit :=
  match v.payload with
  | some _ => discard (count v.shape)
  | none => return ⟨⟩

/-- Adds one variable of the trace. -/
def declare (names : Names) (v : TracedVariable) : Step Names := do
  Run.perform (TensorGraph.Conversion.inspect names v)
  Run.lift (countPayload v)
  Run.perform (TensorGraph.Conversion.store names v)

/-- Adds one node of the trace. -/
def apply (names : Names) (node : TracedNode) (index : Nat) : Step Unit := do
  let op ← Run.perform (TensorGraph.Conversion.enter names node index)
  Run.lift (checkOperator (← get) op)

/-- Adds everything that a trace records. -/
def all (t : Trace) : Step Unit := do
  let names ← t.tensors.foldlM declare []
  t.nodes.zipIdx.forM fun (node, index) => apply names node index
  Run.perform (TensorGraph.Conversion.finish t names)

end Conversion

/-- The valid graph of a trace. -/
def toGraph (t : Trace) : Guarded (Graph Binary32) :=
  match Conversion.all t Graph.empty with
  | .ok _ g => .ok g
  | .error stop _ => .error stop

end TensorGraph.Guarded
