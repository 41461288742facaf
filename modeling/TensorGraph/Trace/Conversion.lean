import TensorGraph.Graph.Edit
import TensorGraph.Graph.Validity
import TensorGraph.Trace.Basic
import TensorGraph.Trace.Parameter

/-!
# TensorGraph.Trace.Conversion

Graphs from traces.

* `Trace.toGraph`: the graph of a trace. Variables and operators keep the order of the trace.

Every function tag stands for one kind of operator. Shapes are taken as the trace declares them
and then checked against the operators, so a trace that lies about a shape is refused.
-/

namespace TensorGraph

namespace Conversion

/-- The variables of a trace by name. -/
abbrev Names := List (String × VariableId)

/-- An edit of the graph under construction. -/
abbrev Step := Edit Binary32

def fail {β : Type} (flaw : TraceFlaw) : Step β := throw (.malformedTrace flaw)

/-- Runs a computation that leaves the graph alone. -/
def lift {β : Type} : Except GraphError β → Step β
  | .ok x => pure x
  | .error e => throw e

/-- Refuses a variable of the trace for its name, its type or an empty dimension. -/
def inspect (names : Names) (v : TracedVariable) : Step Unit := do
  if (names.lookup v.name).isSome then fail (.duplicateVariable v.name)
  match v.elementType with
  | some type =>
    if (ElementType.parse? type).isNone then fail (.unsupportedType v.name type)
  | none => pure ()
  if v.shape.contains 0 then fail (.zeroDimension v.name v.shape)

/-- Adds a variable that has been inspected. -/
def store (names : Names) (v : TracedVariable) : Step Names := do
  let id ← match v.payload with
    | some payload => do
      let size := Shape.size v.shape
      if payload.size ≠ size then fail (.payloadSize v.name v.shape payload.size size)
      Edit.addConstant v.name v.shape payload
    | none => Edit.addVariable v.name v.shape
  return names ++ [(v.name, id)]

/-- Adds one variable of the trace. -/
def declare (names : Names) (v : TracedVariable) : Step Names := do
  inspect names v
  store names v

def lookup (names : Names) (flaw : String → TraceFlaw) (name : String) : Step VariableId :=
  match names.lookup name with
  | some v => pure v
  | none => fail (flaw name)

/-! ## Function tags -/

def arity (tag : String) (wanted : Arity) (inputs : List VariableId) : Except GraphError Unit :=
  if wanted.admits inputs.length then .ok ()
  else .error (.malformedTrace (.arity tag wanted inputs.length))

/-- A parameter as part of the conversion. -/
def param {β : Type} : Except TraceFlaw β → Except GraphError β
  | .ok x => .ok x
  | .error flaw => .error (.malformedTrace flaw)

/-- A convolution takes its kernel from the declared shape of the filter. -/
def convolutionKind (g : Graph Binary32) (p : Parameters) (inputs : List VariableId) :
    Except GraphError (OperatorKind Binary32) := do
  arity p.tag (.between 2 3) inputs
  let filter := match inputs with
    | _ :: w :: _ => g.shape w
    | _ => []
  match filter with
  | [_, _, height, width] => do
    let sy ← param (p.natural "sy" 1)
    let sx ← param (p.natural "sx" 1)
    let ph ← param (p.natural "ph" 0)
    let pw ← param (p.natural "pw" 0)
    return .convolution {
      kernel := ⟨height, width⟩
      stride := ⟨sy, sx⟩
      padding := .symmetric ph pw
      layout := .oihw
      activation := none }
  | _ => throw (.shapeMismatch (.named p.tag) (.filterForm filter))

/-- A pooling is square and without overlap unless its parameters say otherwise. -/
def poolingKind (mode : PoolMode) (p : Parameters) : Except GraphError (OperatorKind Binary32) := do
  let kh ← param (p.requiredNatural "kh")
  let kw ← param (p.natural "kw" kh)
  let sy ← param (p.natural "sy" kh)
  let sx ← param (p.natural "sx" kw)
  let ph ← param (p.natural "ph" 0)
  let pw ← param (p.natural "pw" 0)
  let ceilMode ← param (p.boolean "cover_all" (mode = .max))
  return .pooling {
    mode, kernel := ⟨kh, kw⟩, stride := ⟨sy, sx⟩, padding := .symmetric ph pw, ceilMode }

def responseNormalizationKind (p : Parameters) : Except GraphError (OperatorKind Binary32) := do
  let size ← param (p.natural "n" 5)
  let k ← param (p.real "k" 2)
  let alpha ← param (p.real "alpha" 1e-4)
  let beta ← param (p.real "beta" 0.75)
  return .responseNormalization { size, k, alpha, beta }

/-- A reshape without a shape takes the one declared for its result. -/
def reshapeKind (g : Graph Binary32) (p : Parameters) (outputs : List VariableId) :
    Except GraphError (OperatorKind Binary32) := do
  match (← param (p.shape? "shape")) with
  | some shape => return .reshape shape
  | none =>
    match outputs with
    | v :: _ => return .reshape (g.shape v)
    | [] => return .reshape []

/-- What the function `p.tag` computes. -/
def kindOf (g : Graph Binary32) (p : Parameters) (inputs outputs : List VariableId) :
    Except GraphError (OperatorKind Binary32) := do
  let unary := arity p.tag (.exactly 1) inputs
  match p.tag with
  | "Convolution2DFunction" | "Convolution2D" => convolutionKind g p inputs
  | "LinearFunction" | "Linear" => do
    arity p.tag (.between 2 3) inputs
    return .linear none
  | "ReLU" | "Relu" => do
    unary
    return .activation .relu
  | "Sigmoid" => do
    unary
    return .activation .sigmoid
  | "Tanh" => do
    unary
    return .activation .tanh
  | "LeakyReLU" | "LeakyRelu" => do
    unary
    return .activation (.leakyRelu (← param (p.real "slope" 0.2)))
  | "BatchNormalizationFunction" | "FixedBatchNormalization" | "BatchNormalization" => do
    arity p.tag (.exactly 5) inputs
    return .batchNormalization (← param (p.real "eps" 2e-5))
  | "MaxPooling2D" => do
    unary
    poolingKind .max p
  | "AveragePooling2D" => do
    unary
    poolingKind .average p
  | "LocalResponseNormalization" => do
    unary
    responseNormalizationKind p
  | "Reshape" => do
    unary
    reshapeKind g p outputs
  | "Add" | "ElementwiseAdd" => do
    arity p.tag (.atLeast 2) inputs
    return .elementwiseAdd none
  | "MulConstant" => do
    unary
    return .scalarAffine (← param (p.requiredReal "value")) 0
  | "AddConstant" => do
    unary
    return .scalarAffine 1 (← param (p.requiredReal "value"))
  | "Softmax" => do
    unary
    return .softmax (← param (p.natural "axis" 1))
  | tag => throw (.unsupportedOperator tag)

/-- The kind of a node, which has to have one result. -/
def nodeKind (g : Graph Binary32) (node : TracedNode) (inputs outputs : List VariableId) :
    Except GraphError (OperatorKind Binary32) := do
  let kind ← kindOf g ⟨node.tag, node.params⟩ inputs outputs
  if outputs.length ≠ 1 then
    throw (.malformedTrace (.outputCount node.tag outputs.length))
  return kind

/-- Adds the operator of a node, whose shapes are still to be checked. -/
def enter (names : Names) (node : TracedNode) (index : Nat) : Step (Operator Binary32) := do
  let inputs ← node.inputs.mapM (lookup names (.unknownInNode index node.tag))
  let outputs ← node.outputs.mapM (lookup names (.unknownInNode index node.tag))
  let kind ← lift (nodeKind (← get) node inputs outputs)
  let o ← Edit.addOperator kind inputs outputs
  Edit.liveOperator o

/-- Adds one node of the trace. -/
def apply (names : Names) (node : TracedNode) (index : Nat) : Step Unit := do
  let op ← enter names node index
  lift ((← get).checkOperator op)

/-- Designates inputs and outputs, and drops what nothing needs. -/
def finish (t : Trace) (names : Names) : Step Unit := do
  let inputs ← t.inputs.mapM (lookup names .unknownInput)
  let outputs ← t.outputs.mapM (lookup names .unknownOutput)
  Edit.designateInputs inputs
  Edit.designateOutputs outputs
  discard Edit.prune
  lift (← get).validate

/-- Adds everything that a trace records. -/
def all (t : Trace) : Step Unit := do
  let names ← t.tensors.foldlM declare []
  t.nodes.zipIdx.forM fun (node, index) => apply names node index
  finish t names

end Conversion

/-- The valid graph of a trace. -/
def Trace.toGraph (t : Trace) : Except GraphError (Graph Binary32) :=
  match Conversion.all t Graph.empty with
  | .ok _ g => .ok g
  | .error e _ => .error e

end TensorGraph
