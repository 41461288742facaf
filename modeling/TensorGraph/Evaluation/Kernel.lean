import TensorGraph.Operator.Kind

/-!
# TensorGraph.Evaluation.Kernel

What every kind of operator computes, element by element.

A kernel is given the buffers and extents of its operands, and gives the buffer of its result.
Buffers are row-major, images with batch and channels outside. A kernel whose index leaves a
buffer gives `none`; operands that fit the shape rules never lead there.

The order in which numbers are combined is part of each rule, since sums of rounded numbers
depend on it. Indices are exact; the module `TensorGraph.Guarded.Kernel` computes them in words.
-/

namespace TensorGraph.Kernel

variable {α : Type} [Scalar α]

abbrev Buffer (α : Type) := Array α

/-- The buffer of the values of `f` at the given positions. -/
def tabulate {π : Type} (positions : List π) (f : π → Option α) : Option (Buffer α) :=
  (positions.mapM f).map List.toArray

/-- A result as long as the buffer it is made from: zeros follow what the extents do not cover. -/
def filled (x result : Buffer α) : Buffer α :=
  result ++ Array.replicate (x.size - result.size) Scalar.zero

/-- Start of a dot product: the bias of an output, or zero. -/
def biasAt (bias : Option (Buffer α)) (o : Nat) : Option α :=
  match bias with
  | some b => b[o]?
  | none => some Scalar.zero

/-- Positions of a filter, input channels outside. -/
def taps (channels : Nat) (kernel : Extent) : List (Nat × Nat × Nat) :=
  (List.range channels).flatMap fun i =>
    (List.range kernel.height).flatMap fun ky =>
      (List.range kernel.width).map fun kx => (i, ky, kx)

/-- The pixel under offset `(ky, kx)` of window `(oy, ox)`, or `none` over padding. -/
def windowPixel? (stride : Extent) (margins : Margins) (image : ImageShape)
    (oy ox ky kx : Nat) : Option (Nat × Nat) :=
  match pixel? stride.height margins.top image.height oy ky,
      pixel? stride.width margins.left image.width ox kx with
  | some y, some x => some (y, x)
  | _, _ => none

/-- One element of a convolution: the bias, then the products of the filter with the pixels under
it. -/
def convolutionAt (p : Convolution α) (margins : Margins) (x : Buffer α) (image : ImageShape)
    (w : Buffer α) (dims : FilterDims) (bias : Option (Buffer α)) (b o oy ox : Nat) :
    Option α := do
  let start ← biasAt bias o
  (taps image.channels p.kernel).foldlM (fun acc (i, ky, kx) =>
    match windowPixel? p.stride margins image oy ox ky kx with
    | none => some acc
    | some (iy, ix) => do
      let xv ← x[flatIndex image.channels image.height image.width (b, i, iy, ix)]?
      let wv ← w[p.layout.offset dims o i ky kx]?
      return acc + xv * wv) start

def convolution (p : Convolution α) (x : Buffer α) (image : ImageShape) (w : Buffer α)
    (filter : Shape) (bias : Option (Buffer α)) (out : Extent) : Option (Buffer α) :=
  match p.layout.dims? filter with
  | none => some #[]
  | some dims =>
    let margins := p.margins ⟨image.height, image.width⟩
    tabulate (grid4 image.batch dims.outputs out.height out.width) fun (b, o, oy, ox) => do
      let v ← convolutionAt p margins x image w dims bias b o oy ox
      return Activation.applyTo p.activation v

/-- Every output of every row of a batch: the bias, then the products of the row with a weight
row. -/
def linear (activation : Option (Activation α)) (x : Buffer α) (batch features : Nat)
    (w : Buffer α) (outputs : Nat) (bias : Option (Buffer α)) : Option (Buffer α) :=
  let positions := (List.range batch).flatMap fun b => (List.range outputs).map fun o => (b, o)
  tabulate positions fun (b, o) => do
    let start ← biasAt bias o
    let v ← (List.range features).foldlM (fun acc k => do
      let xv ← x[b * features + k]?
      let wv ← w[o * features + k]?
      return acc + xv * wv) start
    return Activation.applyTo activation v

def pointwise (a : Activation α) (x : Buffer α) : Buffer α := x.map a.apply

/-- Coordinate of element `i` on an axis of `dim` steps with `inner` elements behind each. -/
def coordinate? (inner dim i : Nat) : Option Nat :=
  if inner = 0 ∨ dim = 0 then none else some (i / inner % dim)

/-- A kernel that treats each element according to its coordinate on an axis. -/
def alongAxis (x : Buffer α) (shape : Shape) (axis : Nat) (f : α → Nat → Option α) :
    Option (Buffer α) := do
  let dim ← shape[axis]?
  tabulate (x.toList.zipIdx) fun (v, i) => do
    let c ← coordinate? (shape.inner axis) dim i
    f v c

def batchNormalization (eps : α) (x : Buffer α) (shape : Shape)
    (gamma beta mean variance : Buffer α) : Option (Buffer α) :=
  alongAxis x shape 1 fun v c => do
    let m ← mean[c]?
    let s ← variance[c]?
    let g ← gamma[c]?
    let b ← beta[c]?
    return (v - m) / Scalar.sqrt (s + eps) * g + b

def axiswiseAffine (axis : Nat) (activation : Option (Activation α)) (x : Buffer α)
    (shape : Shape) (scale bias : Buffer α) : Option (Buffer α) :=
  alongAxis x shape axis fun v c => do
    let s ← scale[c]?
    let b ← bias[c]?
    return Activation.applyTo activation (v * s + b)

def scalarAffine (scale bias : α) (x : Buffer α) : Buffer α := x.map fun v => v * scale + bias

/-- Offsets of a pooling window, row by row. -/
def windowOffsets (kernel : Extent) : List (Nat × Nat) :=
  (List.range kernel.height).flatMap fun ky => (List.range kernel.width).map fun kx => (ky, kx)

/-- The pixels of one plane under one window, row by row. -/
def windowValues (p : Pooling) (margins : Margins) (x : Buffer α) (image : ImageShape)
    (plane oy ox : Nat) : Option (List α) :=
  let pixels := (windowOffsets p.kernel).filterMap fun (ky, kx) =>
    windowPixel? p.stride margins image oy ox ky kx
  pixels.mapM fun (iy, ix) => x[(plane * image.height + iy) * image.width + ix]?

/-- The greatest of some numbers, the last one of equal ones. -/
def maximum (values : List α) : α := values.foldl Scalar.max Scalar.emptyMax

/-- One element of a pooling. An average counts padding in the number of pixels. -/
def poolWindow (p : Pooling) (values : List α) : α :=
  match p.mode with
  | .max => maximum values
  | .average =>
    values.foldl (· + ·) Scalar.zero / Scalar.ofNat (p.kernel.height * p.kernel.width)

def pooling (p : Pooling) (x : Buffer α) (image : ImageShape) (out : Extent) :
    Option (Buffer α) :=
  let margins := p.effectiveMargins ⟨image.height, image.width⟩
  tabulate (grid4 1 (image.batch * image.channels) out.height out.width) fun (_, plane, oy, ox) =>
    (windowValues p margins x image plane oy ox).map (poolWindow p)

/-- Every pixel over a power of the squares in the neighbouring channels. -/
def responseNormalization (p : ResponseNormalization α) (x : Buffer α) (image : ImageShape) :
    Option (Buffer α) :=
  let plane := image.height * image.width
  let half := p.size / 2
  let result := tabulate (grid4 1 image.batch image.channels plane) fun (_, b, c, i) => do
    let low := c - half
    let high := min (c + p.size - half) image.channels
    let squares ← (List.range' low (high - low)).foldlM (fun acc j => do
      let v ← x[(b * image.channels + j) * plane + i]?
      return acc + v * v) Scalar.zero
    let v ← x[(b * image.channels + c) * plane + i]?
    return v / Scalar.pow (p.k + p.alpha * squares) p.beta
  result.map (filled x)

def elementwiseAdd (activation : Option (Activation α)) (operands : List (Buffer α)) :
    Option (Buffer α) :=
  let length := match operands with
    | x :: _ => x.size
    | [] => 0
  tabulate (List.range length) fun i => do
    let sum ← operands.foldlM (fun acc x => do return acc + (← x[i]?)) Scalar.emptySum
    return Activation.applyTo activation sum

/-- A row along an axis, as exponentials over their sum. The greatest element is taken off first,
so that no exponential overflows. -/
def softmaxRow (values : List α) : List α :=
  let most := maximum values
  let exponentials := values.map fun v => Scalar.exp (v - most)
  let sum := exponentials.foldl (· + ·) Scalar.zero
  exponentials.map (· / sum)

/-- The elements of every row along the axis, as one list of `dim` values for each outer and
inner position. -/
def softmaxRows (x : Buffer α) (outer dim inner : Nat) : Option (List (List α)) :=
  let rows := (List.range outer).flatMap fun o => (List.range inner).map fun i => (o, i)
  rows.mapM fun (o, i) =>
    ((List.range dim).mapM fun d => x[(o * dim + d) * inner + i]?).map softmaxRow

def softmax (axis : Nat) (x : Buffer α) (shape : Shape) : Option (Buffer α) := do
  let dim ← shape[axis]?
  let inner := shape.inner axis
  if dim * inner = 0 then none
  else
    let outer := x.size / (dim * inner)
    let rows ← softmaxRows x outer dim inner
    let result ← tabulate (grid4 1 outer dim inner) fun (_, o, d, i) => do
      let row ← rows[o * inner + i]?
      row[d]?
    return filled x result

/-- A filter stored with its channels outside, in the order with its input channels innermost. -/
def reorderFilter (w : Buffer α) (dims : FilterDims) : Option (Buffer α) :=
  let result := tabulate (grid4 dims.outputs dims.height dims.width dims.inputs)
    fun (o, y, x, i) => w[FilterLayout.oihw.offset dims o i y x]?
  result.map (filled w)

end TensorGraph.Kernel
