import TensorGraph.Guarded.Basic
import TensorGraph.Operator.OutputShape

/-!
# TensorGraph.Guarded.Window

The shape rules in words of 64 bits.

* `resolve`, `effectiveMargins`: the margins around an image.
* `outputShape`: the shape of a result.
* `overWindow`: the pixels under a window.
-/

namespace TensorGraph.Guarded

variable {α σ : Type}

/-! ## Margins -/

def ceilQuotient (n d : Nat) : Guarded Nat :=
  if d = 0 then .error (.fault .divisor) else .ok (ceilDiv n d)

def samePadding (input kernel stride : Nat) : Guarded (Nat × Nat) := do
  let windows ← ceilQuotient input stride
  let gaps ← minus windows 1
  let span ← flat gaps stride kernel
  let total := span - input
  let after ← minus total (total / 2)
  return (total / 2, after)

def resolve (p : Padding) (input kernel stride : Extent) : Guarded Margins :=
  match p with
  | .explicit margins => return margins
  | .symmetric v h => return ⟨v, h, v, h⟩
  | .same => do
    let vertical ← samePadding input.height kernel.height stride.height
    let horizontal ← samePadding input.width kernel.width stride.width
    return .ofSides vertical horizontal

/-- An axis with the padding before and after it. -/
def padded (input before after : Nat) : Guarded Nat := do plus (← plus input before) after

/-- The padding after an axis, with the extension of ceil mode. -/
def extended (input before after kernel stride : Nat) : Guarded Nat := do
  let length ← padded input before after
  if length < kernel then return after
  else do
    let span ← minus length kernel
    let rest ← remainder span stride
    if rest = 0 then return after else plus after (← minus stride rest)

def effectiveMargins (p : Pooling) (input : Extent) : Guarded Margins := do
  let m ← resolve p.padding input p.kernel p.stride
  if p.ceilMode then
    let bottom ← extended input.height m.top m.bottom p.kernel.height p.stride.height
    let right ← extended input.width m.left m.right p.kernel.width p.stride.width
    return { m with bottom, right }
  else return m

/-! ## Shapes -/

/-- The result of a check of shapes, or the error that the operator at `place` is refused with. -/
def judge {β : Type} (place : Place) : ShapeCheck β → Guarded β
  | .ok x => .ok x
  | .error flaw => .error (.error (.shapeMismatch place flaw))

def windowCount (place : Place) (flaw : ShapeFlaw) (length kernel stride : Nat) :
    Guarded Nat := do
  judge place (.require (kernel ≤ length) flaw)
  let span ← minus length kernel
  let steps ← quotient span stride
  plus steps 1

def windowExtent (place : Place) (input kernel stride : Extent) (margins : Guarded Margins) :
    Guarded Extent := do
  judge place (.require
    (kernel.height ≠ 0 && kernel.width ≠ 0 && stride.height ≠ 0 && stride.width ≠ 0)
    (.emptyWindow kernel stride))
  let m ← margins
  let flaw : ShapeFlaw := .kernelTooLarge kernel input
  let rows ← padded input.height m.top m.bottom
  let height ← windowCount place flaw rows kernel.height stride.height
  let columns ← padded input.width m.left m.right
  let width ← windowCount place flaw columns kernel.width stride.width
  return ⟨height, width⟩

def checkBias (place : Place) (outputs : Nat) : Option Shape → Guarded Unit
  | some bias => judge place (checkVector "bias" outputs bias)
  | none => return ⟨⟩

def convolutionShape (place : Place) (p : Convolution α) (shapes : List Shape) :
    Guarded Shape := do
  judge place (.require (2 ≤ shapes.length && shapes.length ≤ 3)
    (.arity (.between 2 3) shapes.length))
  let x ← entry shapes 0
  let image ← judge place (checkImage x)
  let w ← entry shapes 1
  match p.layout.dims? w with
  | none => judge place (.error (.filterRank w))
  | some dims =>
    judge place (.require (dims.inputs == image.channels)
      (.filterChannels dims.inputs x image.channels))
    judge place (.require (⟨dims.height, dims.width⟩ == p.kernel)
      (.filterExtent ⟨dims.height, dims.width⟩ p.kernel))
    checkBias place dims.outputs shapes[2]?
    let out ← windowExtent place image.extent p.kernel p.stride
      (resolve p.padding image.extent p.kernel p.stride)
    return [image.batch, dims.outputs, out.height, out.width]

def poolingShape (place : Place) (p : Pooling) (shapes : List Shape) : Guarded Shape := do
  judge place (.require (shapes.length == 1) (.arity (.exactly 1) shapes.length))
  let x ← entry shapes 0
  let image ← judge place (checkImage x)
  let out ← windowExtent place image.extent p.kernel p.stride (effectiveMargins p image.extent)
  return [image.batch, image.channels, out.height, out.width]

/-- Counts the features behind the batch of a linear operator with a fitting number of operands. -/
def countFeatures : List Shape → Guarded Unit
  | [_ :: d :: rest, _] => discard (count (d :: rest))
  | [_ :: d :: rest, _, _] => discard (count (d :: rest))
  | _ => return ⟨⟩

/-- Counts the elements on both sides of a reshape. -/
def countReshape (shape : Shape) : List Shape → Guarded Unit
  | [x] => do
    discard (count x)
    discard (count shape)
  | _ => return ⟨⟩

/-- The shape of a result. Only windows and the sizes of tensors take arithmetic. -/
def outputShape [Scalar α] (place : Place) (kind : OperatorKind α) (shapes : List Shape) :
    Guarded Shape :=
  match kind with
  | .convolution p => convolutionShape place p shapes
  | .pooling p => poolingShape place p shapes
  | .linear _ => do
    countFeatures shapes
    judge place (linearShape shapes)
  | .reshape shape => do
    countReshape shape shapes
    judge place (kind.outputShape shapes)
  | kind => judge place (kind.outputShape shapes)

/-! ## Pixels -/

/-- Whether a row or a column, counted from the edge of the margins, is over padding. -/
def outside (before extent position : Nat) : Guarded Bool :=
  if position < before then return true
  else do
    let pixel ← minus position before
    return extent ≤ pixel

/-- A state taken over the offsets of a window that are not over padding. The body is given the row
and the column, counted from the edge of the margins, and the offset. -/
def overWindow (kernel stride : Extent) (margins : Margins) (image : ImageShape) (oy ox : Nat)
    (start : σ) (body : σ → Nat → Nat → Nat → Nat → Guarded σ) : Guarded σ :=
  loop kernel.height start fun s ky => do
    let iy ← flat oy stride.height ky
    if ← outside margins.top image.height iy then return s
    else loop kernel.width s fun s kx => do
      let ix ← flat ox stride.width kx
      if ← outside margins.left image.width ix then return s
      else body s iy ix ky kx

end TensorGraph.Guarded
