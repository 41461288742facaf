import TensorGraph.Guarded.Window

/-!
# TensorGraph.Guarded.Kernel

The kernels in words of 64 bits, with all their steps guarded: every index, every element that they
read or write, every slice, every difference and every division.
-/

namespace TensorGraph.Guarded

open Kernel (Buffer)

variable {α : Type} [Scalar α]

/-! ## Dot products -/

def biasAt (bias : Option (Buffer α)) (o : Nat) : Guarded α :=
  match bias with
  | some b => read b o
  | none => return Scalar.zero

/-- Index of an element of a filter. -/
def filterOffset (layout : FilterLayout) (d : FilterDims) (o i y x : Nat) : Guarded Nat :=
  match layout with
  | .oihw => cell d.inputs d.height d.width o i y x
  | .ohwi => cell d.height d.width d.inputs o y x i

def convolutionAt (p : Convolution α) (margins : Margins) (x : Buffer α) (image : ImageShape)
    (w : Buffer α) (dims : FilterDims) (bias : Option (Buffer α)) (b o oy ox : Nat) :
    Guarded α := do
  let start ← biasAt bias o
  let sum ← loop image.channels start fun acc i =>
    overWindow p.kernel p.stride margins image oy ox acc fun acc iy ix ky kx => do
      let row ← minus (← flat (← flat b image.channels i) image.height iy) margins.top
      let xv ← read x (← minus (← flat row image.width ix) margins.left)
      let wv ← read w (← filterOffset p.layout dims o i ky kx)
      return acc + xv * wv
  return Activation.applyTo p.activation sum

def convolution (p : Convolution α) (x : Buffer α) (image : ImageShape) (w : Buffer α)
    (filter : Shape) (bias : Option (Buffer α)) (out : Extent) : Guarded (Buffer α) :=
  match p.layout.dims? filter with
  | none => return #[]
  | some dims => do
    let margins ← resolve p.padding ⟨image.height, image.width⟩ p.kernel p.stride
    let blank ← zeros (← count [image.batch, dims.outputs, out.height, out.width])
    loop image.batch blank fun r b =>
      loop dims.outputs r fun r o =>
        loop out.height r fun r oy =>
          loop out.width r fun r ox => do
            let v ← convolutionAt p margins x image w dims bias b o oy ox
            write r (← cell dims.outputs out.height out.width b o oy ox) v

def linearAt (activation : Option (Activation α)) (row : Buffer α) (features : Nat)
    (w : Buffer α) (bias : Option (Buffer α)) (o : Nat) : Guarded α := do
  let weights ← slice w (← times o features) (← times (← plus o 1) features)
  let start ← biasAt bias o
  let sum := (row.toList.zip weights.toList).foldl (fun acc (xv, wv) => acc + xv * wv) start
  return Activation.applyTo activation sum

def linear (activation : Option (Activation α)) (x : Buffer α) (batch features : Nat)
    (w : Buffer α) (outputs : Nat) (bias : Option (Buffer α)) : Guarded (Buffer α) := do
  let blank ← zeros (← times batch outputs)
  loop batch blank fun r b => do
    let row ← slice x (← times b features) (← times (← plus b 1) features)
    loop outputs r fun r o => do
      let v ← linearAt activation row features w bias o
      write r (← flat b outputs o) v

/-! ## Element by element -/

/-- The elements behind one step along an axis, as the product of the slice behind it. -/
def innerSize (shape : Shape) (axis : Nat) : Guarded Nat := do
  let next ← plus axis 1
  if next ≤ shape.length then count (shape.drop next) else .error (.fault .index)

def coordinate (inner dim i : Nat) : Guarded Nat := do
  let step ← quotient i inner
  remainder step dim

def alongAxis (x : Buffer α) (shape : Shape) (axis : Nat) (f : α → Nat → Guarded α) :
    Guarded (Buffer α) := do
  let inner ← innerSize shape axis
  let dim ← entry shape axis
  collect x.toList.zipIdx fun (v, i) => do
    let c ← coordinate inner dim i
    f v c

def batchNormalization (eps : α) (x : Buffer α) (shape : Shape)
    (gamma beta mean variance : Buffer α) : Guarded (Buffer α) :=
  alongAxis x shape 1 fun v c => do
    let m ← read mean c
    let s ← read variance c
    let g ← read gamma c
    let b ← read beta c
    return (v - m) / Scalar.sqrt (s + eps) * g + b

def axiswiseAffine (axis : Nat) (activation : Option (Activation α)) (x : Buffer α)
    (shape : Shape) (scale bias : Buffer α) : Guarded (Buffer α) :=
  alongAxis x shape axis fun v c => do
    let s ← read scale c
    let b ← read bias c
    return Activation.applyTo activation (v * s + b)

def elementwiseAdd (activation : Option (Activation α)) (operands : List (Buffer α)) :
    Guarded (Buffer α) :=
  let length := match operands with
    | x :: _ => x.size
    | [] => 0
  collect (List.range length) fun i => do
    let sum ← operands.foldlM (fun acc x => do
      let v ← read x i
      return acc + v) Scalar.emptySum
    return Activation.applyTo activation sum

/-! ## Images -/

/-- The maximum and the sum of a window, with one more pixel of the plane. -/
def poolingStep (margins : Margins) (plane : Buffer α) (image : ImageShape) (so_far : α × α)
    (iy ix : Nat) : Guarded (α × α) := do
  let y ← minus iy margins.top
  let v ← read plane (← minus (← flat y image.width ix) margins.left)
  return (Scalar.max so_far.1 v, so_far.2 + v)

/-- One element of a pooling, from the maximum and the sum of its window. -/
def pooledValue (p : Pooling) (window : α × α) : Guarded α :=
  match p.mode with
  | .max => return window.1
  | .average => do
    let area ← times p.kernel.height p.kernel.width
    return window.2 / Scalar.ofNat area

def poolingAt (p : Pooling) (margins : Margins) (plane : Buffer α) (image : ImageShape)
    (oy ox : Nat) : Guarded α := do
  let window ← overWindow p.kernel p.stride margins image oy ox (Scalar.emptyMax, Scalar.zero)
    fun so_far iy ix _ _ => poolingStep margins plane image so_far iy ix
  pooledValue p window

def pooling (p : Pooling) (x : Buffer α) (image : ImageShape) (out : Extent) :
    Guarded (Buffer α) := do
  let margins ← effectiveMargins p ⟨image.height, image.width⟩
  let blank ← zeros (← count [image.batch, image.channels, out.height, out.width])
  let planes ← times image.batch image.channels
  loop planes blank fun r c => do
    let low ← times (← times c image.height) image.width
    let high ← times (← times (← plus c 1) image.height) image.width
    let plane ← slice x low high
    loop out.height r fun r oy =>
      loop out.width r fun r ox => do
        let v ← poolingAt p margins plane image oy ox
        write r (← position out.height out.width c oy ox) v

def responseAt (p : ResponseNormalization α) (x : Buffer α) (image : ImageShape)
    (plane low high b c i : Nat) : Guarded α := do
  let squares ← (List.range' low (high - low)).foldlM (fun acc j => do
    let v ← read x (← position image.channels plane b j i)
    return acc + v * v) Scalar.zero
  let v ← read x (← position image.channels plane b c i)
  return v / Scalar.pow (p.k + p.alpha * squares) p.beta

def responseNormalization (p : ResponseNormalization α) (x : Buffer α) (image : ImageShape) :
    Guarded (Buffer α) := do
  let plane ← times image.height image.width
  let half := p.size / 2
  let blank ← zeros x.size
  loop image.batch blank fun r b =>
    loop image.channels r fun r c => do
      let behind ← minus (← plus c p.size) half
      loop plane r fun r i => do
        let v ← responseAt p x image plane (c - half) (min behind image.channels) b c i
        write r (← position image.channels plane b c i) v

/-! ## Rows along an axis -/

def rowMaximum (x : Buffer α) (dim : Nat) (index : Nat → Guarded Nat) : Guarded α :=
  loop dim Scalar.emptyMax fun acc d => do
    let v ← read x (← index d)
    return Scalar.max acc v

/-- Writes the exponentials of a row and adds them up. -/
def writeExponentials (x : Buffer α) (dim : Nat) (index : Nat → Guarded Nat) (most : α)
    (r : Buffer α) : Guarded (Buffer α × α) :=
  loop dim (r, Scalar.zero) fun s d => do
    let v ← read x (← index d)
    let e := Scalar.exp (v - most)
    let r ← write s.1 (← index d) e
    return (r, s.2 + e)

def divideRow (dim : Nat) (index : Nat → Guarded Nat) (sum : α) (r : Buffer α) :
    Guarded (Buffer α) :=
  loop dim r fun r d => do
    let i ← index d
    let e ← read r i
    write r i (e / sum)

def softmaxRow (x : Buffer α) (dim : Nat) (index : Nat → Guarded Nat) (r : Buffer α) :
    Guarded (Buffer α) := do
  let most ← rowMaximum x dim index
  let s ← writeExponentials x dim index most r
  divideRow dim index s.2 s.1

def softmax (axis : Nat) (x : Buffer α) (shape : Shape) : Guarded (Buffer α) := do
  let inner ← innerSize shape axis
  let dim ← entry shape axis
  let outer ← quotient x.size (← times dim inner)
  let blank ← zeros x.size
  loop outer blank fun r o =>
    loop inner r fun r i => softmaxRow x dim (fun d => position dim inner o d i) r

end TensorGraph.Guarded
