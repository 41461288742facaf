import TensorGraph.Operator.Activation
import TensorGraph.Tensor.FilterLayout
import TensorGraph.Tensor.Window

/-!
# TensorGraph.Operator.Kind

What an operator computes, with its parameters.

* `OperatorKind`: the computations, over scalars `α`.
* `OperatorKind.activationSlot?`: the place for a fused activation, in the kinds that have one.
-/

namespace TensorGraph

/-- Convolution of an image with a filter. -/
structure Convolution (α : Type) where
  kernel : Extent
  stride : Extent
  padding : Padding
  layout : FilterLayout
  activation : Option (Activation α)
  deriving DecidableEq

inductive PoolMode where
  | max
  | average
  deriving DecidableEq

/-- Maximum or average over the windows of an image. With `ceilMode` the number of windows is
rounded up, so that every pixel lies in one. -/
structure Pooling where
  mode : PoolMode
  kernel : Extent
  stride : Extent
  padding : Padding
  ceilMode : Bool
  deriving DecidableEq

namespace Pooling

/-- The margins with the extension of ceil mode in them. -/
def effectiveMargins (p : Pooling) (input : Extent) : Margins :=
  let margins := p.padding.resolve input p.kernel p.stride
  if p.ceilMode then ceilMargins margins input p.kernel p.stride else margins

/-- The same pooling with its margins spelled out. -/
def withExplicitMargins (p : Pooling) (input : Extent) : Pooling :=
  { p with padding := .explicit (p.effectiveMargins input), ceilMode := false }

end Pooling

namespace Convolution

/-- The margins around an image. -/
def margins {α : Type} (p : Convolution α) (input : Extent) : Margins :=
  p.padding.resolve input p.kernel p.stride

/-- The same convolution with its margins spelled out. -/
def withExplicitMargins {α : Type} (p : Convolution α) (input : Extent) : Convolution α :=
  { p with padding := .explicit (p.margins input) }

end Convolution

/-- Parameters of local response normalization over `size` neighbouring channels. -/
structure ResponseNormalization (α : Type) where
  size : Nat
  k : α
  alpha : α
  beta : α
  deriving DecidableEq

/-- Computation of an operator. The operands are, in order:
`convolution`: image, filter, and a bias per output channel if there is one;
`linear`: a batch of vectors, a weight row per output, and a bias per output if there is one;
`batchNormalization`: a tensor with channels on axis 1, then scale, shift, mean and variance;
`axiswiseAffine`: a tensor, then scale and shift along `axis`;
`elementwiseAdd`: two or more tensors of one shape; all others: one tensor. -/
inductive OperatorKind (α : Type) where
  | convolution (p : Convolution α)
  | linear (activation : Option (Activation α))
  | activation (a : Activation α)
  | batchNormalization (eps : α)
  | pooling (p : Pooling)
  | responseNormalization (p : ResponseNormalization α)
  | reshape (shape : Shape)
  | elementwiseAdd (activation : Option (Activation α))
  | scalarAffine (scale bias : α)
  | axiswiseAffine (axis : Nat) (activation : Option (Activation α))
  | softmax (axis : Nat)
  deriving DecidableEq

namespace OperatorKind

variable {α : Type}

def name : OperatorKind α → String
  | .convolution _ => "convolution_2d"
  | .linear _ => "linear"
  | .activation a => a.name
  | .batchNormalization _ => "batch_normalization"
  | .pooling p => match p.mode with
    | .max => "max_pooling_2d"
    | .average => "average_pooling_2d"
  | .responseNormalization _ => "local_response_normalization"
  | .reshape _ => "reshape"
  | .elementwiseAdd _ => "elementwise_add"
  | .scalarAffine _ _ => "scalar_affine"
  | .axiswiseAffine _ _ => "axiswise_affine"
  | .softmax _ => "softmax"

/-- The activation that the operator computes by itself. -/
def standalone? : OperatorKind α → Option (Activation α)
  | .activation a => some a
  | _ => none

/-- Content of the slot for a fused activation; `none` for a kind without a slot. -/
def activationSlot? : OperatorKind α → Option (Option (Activation α))
  | .convolution p => some p.activation
  | .linear a => some a
  | .elementwiseAdd a => some a
  | .axiswiseAffine _ a => some a
  | _ => none

/-- Stores an activation in the slot. A kind without a slot stays as it is. -/
def withActivation (a : Activation α) : OperatorKind α → OperatorKind α
  | .convolution p => .convolution { p with activation := some a }
  | .linear _ => .linear (some a)
  | .elementwiseAdd _ => .elementwiseAdd (some a)
  | .axiswiseAffine axis _ => .axiswiseAffine axis (some a)
  | other => other

/-- The activation in the slot. -/
def fused? (k : OperatorKind α) : Option (Activation α) := k.activationSlot?.join

end OperatorKind

end TensorGraph
