import TensorGraph.Lowering.Generation
import TensorGraph.Lowering.Table

/-!
# TensorGraph.Lowering.Portable

The fallback backend: every operator becomes a call of a reference implementation by name, with
its parameters resolved. There is no kernel source.
-/

namespace TensorGraph

/-- A resolved parameter of a reference implementation. -/
inductive PortableParam (α : Type) where
  | natural (n : Nat)
  | naturals (ns : List Nat)
  | real (x : α)
  | word (s : String)
  | activation (a : Option (Activation α))

structure PortableKernel (α : Type) where
  implementation : String
  inputs : List VariableId
  outputs : List VariableId
  /-- Parameters in the order of their names. -/
  params : List (String × PortableParam α)

structure PortableDescriptor (α : Type) where
  interface : Interface
  kernels : List (PortableKernel α)

namespace Portable

variable {α : Type}

def extentParam (e : Extent) : PortableParam α := .naturals [e.height, e.width]

/-- The parameters of a kind for an image of the given extent. -/
def params (kind : OperatorKind α) (input : Extent) : List (String × PortableParam α) :=
  match kind with
  | .convolution p =>
    [("activation", .activation p.activation),
      ("filter_layout", .word p.layout.name),
      ("kernel", extentParam p.kernel),
      ("padding", .naturals (p.margins input).toList),
      ("stride", extentParam p.stride)]
  | .linear a => [("activation", .activation a)]
  | .elementwiseAdd a => [("activation", .activation a)]
  | .activation (.leakyRelu slope) => [("slope", .real slope)]
  | .activation _ => []
  | .batchNormalization eps => [("eps", .real eps)]
  | .pooling p =>
    [("kernel", extentParam p.kernel),
      ("padding", .naturals (p.effectiveMargins input).toList),
      ("stride", extentParam p.stride)]
  | .responseNormalization p =>
    [("alpha", .real p.alpha), ("beta", .real p.beta), ("k", .real p.k),
      ("size", .natural p.size)]
  | .reshape shape => [("shape", .naturals shape)]
  | .scalarAffine scale bias => [("bias", .real bias), ("scale", .real scale)]
  | .axiswiseAffine axis a => [("activation", .activation a), ("axis", .natural axis)]
  | .softmax axis => [("axis", .natural axis)]

/-- Height and width of an operator's first operand; of one that is no image, zero. -/
def inputExtent (g : Graph α) (op : Operator α) : Extent :=
  match op.input?.bind fun x => ImageShape.ofShape? (g.shape x) with
  | some image => ⟨image.height, image.width⟩
  | none => ⟨0, 0⟩

def kernel (g : Graph α) (op : Operator α) : PortableKernel α :=
  { implementation := op.kind.name
    inputs := op.inputs
    outputs := op.outputs
    params := params op.kind (inputExtent g op) }

/-- A whole run of the backend. -/
def generate [Scalar α] (g : Graph α) :
    Generation.Step (PortableDescriptor α × WeightBuffer α) := do
  let order ← Generation.traverse g fun _ => .ok ()
  let kernels ← Generation.lower g order fun op => .ok (kernel g op)
  let weights ← Generation.pack g order
  Generation.finish
  return (⟨.of g weights, kernels⟩, weights)

end Portable

end TensorGraph
