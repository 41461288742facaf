import TensorGraph.Tensor.Shape

/-!
# TensorGraph.Tensor.Window

Windows that slide over the height and the width of an image.

* `Padding.resolve`: the margins that a padding convention puts around an image.
* `ceilMargins`: margins extended so that the last window covers the far edge.
* `windowCount`: how many windows fit along each axis.
* `pixel?`: the pixel under one position of one window, if it is not padding.

The two axes never interact, so each rule is stated for one axis first. Extents are counted without
a bound here; the module `TensorGraph.Guarded.Window` has the same rules in words.
-/

namespace TensorGraph

/-- A value for the vertical and one for the horizontal axis. -/
structure Extent where
  height : Nat
  width : Nat
  deriving DecidableEq

namespace Extent

def text (e : Extent) : String := Shape.text [e.height, e.width]

end Extent

/-- Rows and columns of padding around an image. -/
structure Margins where
  top : Nat
  left : Nat
  bottom : Nat
  right : Nat
  deriving DecidableEq

namespace Margins

def none : Margins := ⟨0, 0, 0, 0⟩

def toList (m : Margins) : List Nat := [m.top, m.left, m.bottom, m.right]

/-- Margins from the two sides of each axis. -/
def ofSides (vertical horizontal : Nat × Nat) : Margins :=
  ⟨vertical.1, horizontal.1, vertical.2, horizontal.2⟩

end Margins

/-- `n / d`, rounded up. -/
def ceilDiv (n d : Nat) : Nat :=
  if n % d = 0 then n / d else n / d + 1

/-- The least padding of an axis under which `⌈input / stride⌉` windows fit, the odd row or
column on the far side. -/
def samePadding (input kernel stride : Nat) : Nat × Nat :=
  let total := ((ceilDiv input stride - 1) * stride + kernel) - input
  (total / 2, total - total / 2)

/-- Padding convention. `explicit` is the canonical one; the others depend on the image or name
both sides of an axis at once. -/
inductive Padding where
  | explicit (margins : Margins)
  | symmetric (vertical horizontal : Nat)
  | same
  deriving DecidableEq

namespace Padding

def isExplicit : Padding → Bool
  | .explicit _ => true
  | _ => false

/-- The margins around an image of extent `input`. -/
def resolve (p : Padding) (input kernel stride : Extent) : Margins :=
  match p with
  | .explicit margins => margins
  | .symmetric v h => ⟨v, h, v, h⟩
  | .same =>
    .ofSides (samePadding input.height kernel.height stride.height)
      (samePadding input.width kernel.width stride.width)

end Padding

/-- How far the far side of an axis is extended so that the windows end on its last row or
column. A kernel larger than the axis is left alone. -/
def ceilExtension (padded kernel stride : Nat) : Nat :=
  let rest := (padded - kernel) % stride
  if padded < kernel ∨ rest = 0 then 0 else stride - rest

/-- Number of windows along one axis. -/
def windowCount (padded kernel stride : Nat) : Nat := (padded - kernel) / stride + 1

/-- Margins extended at the bottom and on the right, so that rounding the number of windows down
gives what rounding it up gave before. -/
def ceilMargins (m : Margins) (input kernel stride : Extent) : Margins :=
  { m with
    bottom := m.bottom +
      ceilExtension (input.height + m.top + m.bottom) kernel.height stride.height
    right := m.right +
      ceilExtension (input.width + m.left + m.right) kernel.width stride.width }

/-- The pixel under offset `k` of window `o` along an axis of `extent` pixels with `before` rows
or columns of padding in front, or `none` over padding. -/
def pixel? (stride before extent o k : Nat) : Option Nat :=
  let position := o * stride + k
  if position < before ∨ extent ≤ position - before then none else some (position - before)

end TensorGraph
