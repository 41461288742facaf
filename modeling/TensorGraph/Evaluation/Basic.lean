import TensorGraph.Evaluation.Kernel
import TensorGraph.Graph.Order
import TensorGraph.Graph.Validity

/-!
# TensorGraph.Evaluation.Basic

The meaning of a graph: what its outputs are for given inputs.

* `Graph.evaluateOperator`: one operator, from the buffers of its operands.
* `Graph.evaluate`: all operators in dependency order, from one buffer per designated input.
-/

namespace TensorGraph

open Kernel (Buffer)

/-- Buffers of variables, the latest first. -/
abbrev Valuation (α : Type) := List (VariableId × Buffer α)

variable {α : Type} [Scalar α]

/-- The kernel of a kind, for operands of the given shapes and a result of shape `out`. `none` if
an index leaves a buffer, or the operands are not those of the kind. -/
def OperatorKind.compute (kind : OperatorKind α) (shapes : List Shape) (out : Shape)
    (operands : List (Buffer α)) : Option (Buffer α) :=
  match kind, shapes, operands with
  | .convolution p, xs :: ws :: _, x :: w :: rest => do
    let image ← ImageShape.ofShape? xs
    let result ← ImageShape.ofShape? out
    Kernel.convolution p x image w ws rest.head? ⟨result.height, result.width⟩
  | .linear fused, (batch :: _) :: [outputs, features] :: _, x :: w :: rest =>
    Kernel.linear fused x batch features w outputs rest.head?
  | .activation a, _, [x] => some (Kernel.pointwise a x)
  | .batchNormalization eps, xs :: _, [x, gamma, beta, mean, variance] =>
    Kernel.batchNormalization eps x xs gamma beta mean variance
  | .pooling p, [xs], [x] => do
    let image ← ImageShape.ofShape? xs
    let result ← ImageShape.ofShape? out
    Kernel.pooling p x image ⟨result.height, result.width⟩
  | .responseNormalization p, [xs], [x] => do
    let image ← ImageShape.ofShape? xs
    Kernel.responseNormalization p x image
  | .reshape _, _, [x] => some x
  | .elementwiseAdd fused, _, xs => Kernel.elementwiseAdd fused xs
  | .scalarAffine scale bias, _, [x] => some (Kernel.scalarAffine scale bias x)
  | .axiswiseAffine axis fused, xs :: _, [x, scale, bias] =>
    Kernel.axiswiseAffine axis fused x xs scale bias
  | .softmax axis, [xs], [x] => Kernel.softmax axis x xs
  | _, _, _ => none

namespace Graph

/-- The one result of an operator, from the buffers of its operands. -/
def evaluateOperator (g : Graph α) (op : Operator α) (operands : List (Buffer α)) :
    Except GraphError (Buffer α) := do
  g.checkOperator op
  ensure (operands.length == op.inputs.length)
    (.invalidGraph op.place (.operandCount operands.length op.inputs.length))
  let out := match op.outputs with
    | v :: _ => g.shape v
    | [] => []
  match op.kind.compute (op.inputs.map g.shape) out operands with
  | none => throw (.shapeMismatch op.place .outOfBounds)
  | some result =>
    ensure (result.size == out.size) (.shapeMismatch op.place (.resultSize result.size out))
    return result

/-- The buffer of a variable: its payload, or the value computed for it. -/
def valueOf (g : Graph α) (values : Valuation α) (v : VariableId) :
    Except GraphError (Buffer α) :=
  match g.payload? v with
  | some payload => .ok payload
  | none =>
    match values.lookup v with
    | some x => .ok x
    | none => .error (.atVariable v .notComputed)

/-- The buffers given for the designated inputs. The last one wins where a variable is designated
twice. -/
def bindInputs (g : Graph α) (buffers : List (Buffer α)) : Except GraphError (Valuation α) := do
  ensure (buffers.length == g.inputs.length)
    (.invalidGraph (.named "inputs") (.bufferCount g.inputs.length buffers.length))
  (g.inputs.zip buffers).foldlM (fun values (v, x) => do
    ensure (x.size == (g.shape v).size)
      (.shapeMismatch (.variable v) (.inputSize (g.shape v) x.size))
    return (v, x) :: values) []

/-- Computes one operator and records its result. -/
def evaluateStep (g : Graph α) (values : Valuation α) (o : OperatorId) :
    Except GraphError (Valuation α) := do
  match g.operatorAt? o with
  | none => throw (.atOperator o .operatorNotLive)
  | some op =>
    let operands ← op.inputs.mapM (g.valueOf values)
    let result ← g.evaluateOperator op operands
    match op.outputs with
    | v :: _ => return (v, result) :: values
    | [] => return values

/-- One buffer per designated output, from one per designated input. -/
def evaluate (g : Graph α) (inputs : List (Buffer α)) : Except GraphError (List (Buffer α)) := do
  let values ← g.bindInputs inputs
  let order ← g.topologicalOrder
  let values ← order.foldlM g.evaluateStep values
  g.outputs.mapM (g.valueOf values)

end Graph

end TensorGraph
