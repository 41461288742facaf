import TensorGraph.Error
import TensorGraph.Operator.Kind

/-!
# TensorGraph.Operator.OutputShape

The shape of an operator's result.

* `OperatorKind.outputShape`: the result's shape for given operand shapes, or the first thing
  that does not fit.
-/

namespace TensorGraph

abbrev ShapeCheck := Except ShapeFlaw

/-- Fails with `flaw` unless the condition holds. -/
def ShapeCheck.require (condition : Bool) (flaw : ShapeFlaw) : ShapeCheck Unit :=
  if condition then .ok () else .error flaw

open ShapeCheck (require)

/-- An operand that has to be a vector of the given length. -/
def checkVector (what : String) (length : Nat) (given : Shape) : ShapeCheck Unit :=
  require (given == [length]) (.vector what length given)

def checkImage (shape : Shape) : ShapeCheck ImageShape :=
  match ImageShape.ofShape? shape with
  | some image => .ok image
  | none => .error (.imageRank shape)

/-- Windows along one axis, if the padded axis holds a whole one. -/
def checkWindows? (padded kernel stride : Nat) : Option Nat :=
  if padded < kernel then none else some (windowCount padded kernel stride)

/-- Extent of the result of a sliding window. The margins are asked for only after kernel and
stride are known to be positive. -/
def windowExtent (input kernel stride : Extent) (margins : Unit → Margins) :
    ShapeCheck Extent := do
  require (kernel.height ≠ 0 && kernel.width ≠ 0 && stride.height ≠ 0 && stride.width ≠ 0)
    (.emptyWindow kernel stride)
  let m := margins ()
  match checkWindows? (input.height + m.top + m.bottom) kernel.height stride.height,
      checkWindows? (input.width + m.left + m.right) kernel.width stride.width with
  | some height, some width => return ⟨height, width⟩
  | _, _ => throw (.kernelTooLarge kernel input)

def ImageShape.extent (s : ImageShape) : Extent := ⟨s.height, s.width⟩

def convolutionShape {α : Type} (p : Convolution α) (inputs : List Shape) : ShapeCheck Shape :=
  let check (x w : Shape) (bias : Option Shape) : ShapeCheck Shape := do
    let image ← checkImage x
    match p.layout.dims? w with
    | none => throw (.filterRank w)
    | some dims =>
      require (dims.inputs == image.channels) (.filterChannels dims.inputs x image.channels)
      require (⟨dims.height, dims.width⟩ == p.kernel)
        (.filterExtent ⟨dims.height, dims.width⟩ p.kernel)
      match bias with
      | some b => checkVector "bias" dims.outputs b
      | none => pure ()
      let out ← windowExtent image.extent p.kernel p.stride fun _ => p.margins image.extent
      return [image.batch, dims.outputs, out.height, out.width]
  match inputs with
  | [x, w] => check x w none
  | [x, w, b] => check x w (some b)
  | _ => throw (.arity (.between 2 3) inputs.length)

def linearShape (inputs : List Shape) : ShapeCheck Shape :=
  let check (x w : Shape) (bias : Option Shape) : ShapeCheck Shape := do
    match x with
    | batch :: first :: rest =>
      let features := Shape.size (first :: rest)
      match w with
      | [outputs, width] =>
        require (width == features) (.linearFeatures w features x)
        match bias with
        | some b => checkVector "bias" outputs b
        | none => pure ()
        return [batch, outputs]
      | _ => throw (.linearFeatures w features x)
    | _ => throw (.linearRank x)
  match inputs with
  | [x, w] => check x w none
  | [x, w, b] => check x w (some b)
  | _ => throw (.arity (.between 2 3) inputs.length)

def poolingShape (p : Pooling) (inputs : List Shape) : ShapeCheck Shape :=
  match inputs with
  | [x] => do
    let image ← checkImage x
    let out ← windowExtent image.extent p.kernel p.stride fun _ =>
      p.effectiveMargins image.extent
    return [image.batch, image.channels, out.height, out.width]
  | _ => throw (.arity (.exactly 1) inputs.length)

def batchNormalizationShape {α : Type} [Scalar α] (eps : α) (inputs : List Shape) :
    ShapeCheck Shape :=
  match inputs with
  | [x, gamma, beta, mean, variance] =>
    match x with
    | _ :: channels :: _ => do
      require (Scalar.nonnegative eps) (.negativeEps (Scalar.message eps))
      checkVector "gamma" channels gamma
      checkVector "beta" channels beta
      checkVector "mean" channels mean
      checkVector "var" channels variance
      return x
    | _ => throw (.channelAxis x)
  | _ => throw (.arity (.exactly 5) inputs.length)

def axiswiseAffineShape (axis : Nat) (inputs : List Shape) : ShapeCheck Shape :=
  match inputs with
  | [x, scale, bias] =>
    match x[axis]? with
    | some dim => do
      checkVector "scale" dim scale
      checkVector "bias" dim bias
      return x
    | none => throw (.axisRange axis x)
  | _ => throw (.arity (.exactly 3) inputs.length)

def elementwiseAddShape (inputs : List Shape) : ShapeCheck Shape :=
  match inputs with
  | x :: y :: rest =>
    match (y :: rest).find? (· != x) with
    | some other => throw (.operandShapes x other)
    | none => return x
  | _ => throw (.arity (.atLeast 2) inputs.length)

/-- The rule of an operator with one operand. -/
def unaryShape (inputs : List Shape) (rule : Shape → ShapeCheck Shape) : ShapeCheck Shape :=
  match inputs with
  | [x] => rule x
  | _ => throw (.arity (.exactly 1) inputs.length)

namespace OperatorKind

variable {α : Type} [Scalar α]

def outputShape (kind : OperatorKind α) (inputs : List Shape) : ShapeCheck Shape :=
  match kind with
  | .convolution p => convolutionShape p inputs
  | .linear _ => linearShape inputs
  | .activation _ => unaryShape inputs .ok
  | .scalarAffine _ _ => unaryShape inputs .ok
  | .batchNormalization eps => batchNormalizationShape eps inputs
  | .pooling p => poolingShape p inputs
  | .responseNormalization p => unaryShape inputs fun x => do
    let _ ← checkImage x
    require (p.size ≠ 0) .emptyNeighbourhood
    return x
  | .reshape shape => unaryShape inputs fun x => do
    require (x.size == shape.size) (.reshapeSize x shape)
    return shape
  | .elementwiseAdd _ => elementwiseAddShape inputs
  | .axiswiseAffine axis _ => axiswiseAffineShape axis inputs
  | .softmax axis => unaryShape inputs fun x => do
    require (axis < x.length) (.axisRange axis x)
    return x

end OperatorKind

end TensorGraph
