import TensorGraph.Evaluation.Basic
import TensorGraph.Guarded.Kernel

/-!
# TensorGraph.Guarded.Evaluation

Evaluation in words of 64 bits.

* `compute`: the kernel of a kind.
* `checkOperator`, `check`: the declared shapes of a graph.
* `evaluateOperator`, `evaluate`: one operator, and all of them in dependency order.
-/

namespace TensorGraph.Guarded

open Kernel (Buffer)

variable {α : Type}

/-! ## Operators -/

def shapeOf (g : Graph α) (v : VariableId) : Guarded Shape :=
  (demand .dead (g.variableAt? v)).map (·.shape)

variable [Scalar α]

/-- The kernel of a kind, with its operands and their shapes taken by position. -/
def compute (place : Place) (kind : OperatorKind α) (shapes : List Shape) (out : Shape)
    (operands : List (Buffer α)) : Guarded (Buffer α) := do
  let x ← entry operands 0
  match kind with
  | .convolution p => do
    let image ← judge place (checkImage (← entry shapes 0))
    let w ← entry operands 1
    let filter ← entry shapes 1
    let height ← entry out 2
    let width ← entry out 3
    convolution p x image w filter operands[2]? ⟨height, width⟩
  | .linear fused => do
    let weights ← entry shapes 1
    let features ← entry weights 1
    let batch ← entry (← entry shapes 0) 0
    let w ← entry operands 1
    let outputs ← entry weights 0
    linear fused x batch features w outputs operands[2]?
  | .activation a => return Kernel.pointwise a x
  | .batchNormalization eps => do
    let shape ← entry shapes 0
    let gamma ← entry operands 1
    let beta ← entry operands 2
    let mean ← entry operands 3
    let variance ← entry operands 4
    batchNormalization eps x shape gamma beta mean variance
  | .pooling p => do
    let image ← judge place (checkImage (← entry shapes 0))
    let height ← entry out 2
    let width ← entry out 3
    pooling p x image ⟨height, width⟩
  | .responseNormalization p => do
    let image ← judge place (checkImage (← entry shapes 0))
    responseNormalization p x image
  | .reshape _ => return x
  | .elementwiseAdd fused => elementwiseAdd fused operands
  | .scalarAffine scale bias => return Kernel.scalarAffine scale bias x
  | .axiswiseAffine axis fused => do
    let shape ← entry shapes 0
    let scale ← entry operands 1
    let bias ← entry operands 2
    axiswiseAffine axis fused x shape scale bias
  | .softmax axis => do
    let shape ← entry shapes 0
    softmax axis x shape

def checkOperator (g : Graph α) (op : Operator α) : Guarded Unit := do
  let shapes ← op.inputs.mapM (shapeOf g)
  let inferred ← outputShape op.place op.kind shapes
  report (Graph.ensure (op.outputs.length == 1)
    (.shapeMismatch op.place (.outputCount op.outputs.length)))
  let v ← entry op.outputs 0
  let declared ← shapeOf g v
  report (Graph.ensure (declared == inferred)
    (.shapeMismatch op.place (.declaredShape v declared shapes inferred)))

/-- Checks a graph. Its payloads were counted when they were added, so that `Graph.validate` has no
other numbers to count. -/
def check (g : Graph α) : Guarded Unit := do
  report g.validate
  g.liveOperators.forM (checkOperator g)

def evaluateOperator (g : Graph α) (op : Operator α) (operands : List (Buffer α)) :
    Guarded (Buffer α) := do
  checkOperator g op
  report (Graph.ensure (operands.length == op.inputs.length)
    (.invalidGraph op.place (.operandCount operands.length op.inputs.length)))
  let shapes ← op.inputs.mapM (shapeOf g)
  let out ← shapeOf g (← entry op.outputs 0)
  let result ← compute op.place op.kind shapes out operands
  let size ← count out
  report (Graph.ensure (result.size == size)
    (.shapeMismatch op.place (.resultSize result.size out)))
  return result

/-! ## Graphs -/

omit [Scalar α] in
def valueOf (g : Graph α) (values : Valuation α) (v : VariableId) : Guarded (Buffer α) := do
  let x ← demand .dead (g.variableAt? v)
  match x.payload with
  | some payload => return payload
  | none =>
    match values.lookup v with
    | some value => return value
    | none => report (.error (.atVariable v .notComputed))

omit [Scalar α] in
def bindInputs (g : Graph α) (buffers : List (Buffer α)) : Guarded (Valuation α) := do
  report (Graph.ensure (buffers.length == g.inputs.length)
    (.invalidGraph (.named "inputs") (.bufferCount g.inputs.length buffers.length)))
  (g.inputs.zip buffers).foldlM (fun values p => do
    let shape ← shapeOf g p.1
    let size ← count shape
    report (Graph.ensure (p.2.size == size)
      (.shapeMismatch (.variable p.1) (.inputSize shape p.2.size)))
    return p :: values) []

def evaluateStep (g : Graph α) (values : Valuation α) (o : OperatorId) :
    Guarded (Valuation α) := do
  let op ← demand .dead (g.operatorAt? o)
  let operands ← op.inputs.mapM (valueOf g values)
  let result ← evaluateOperator g op operands
  let v ← entry op.outputs 0
  return (v, result) :: values

def evaluate (g : Graph α) (inputs : List (Buffer α)) : Guarded (List (Buffer α)) := do
  let values ← bindInputs g inputs
  let order ← report g.topologicalOrder
  let values ← order.foldlM (evaluateStep g) values
  g.outputs.mapM (valueOf g values)

end TensorGraph.Guarded
