import TensorGraph.Tensor.Shape

/-!
# TensorGraph.Tensor.FilterLayout

Storage orders of convolution filters: output channels, input channels, height and width.

* `FilterLayout.dims?`: what a stored shape means in a layout.
* `FilterLayout.offset`: where an element is stored.
-/

namespace TensorGraph

/-- Extents of a filter, whatever order they are stored in. -/
structure FilterDims where
  outputs : Nat
  inputs : Nat
  height : Nat
  width : Nat
  deriving DecidableEq

/-- `oihw` stores the channels outside, `ohwi` the input channels innermost. -/
inductive FilterLayout where
  | oihw
  | ohwi
  deriving DecidableEq

namespace FilterLayout

def name : FilterLayout → String
  | .oihw => "oihw"
  | .ohwi => "ohwi"

/-- The extents of a filter stored with the given shape. -/
def dims? : FilterLayout → Shape → Option FilterDims
  | .oihw, [o, i, h, w] => some ⟨o, i, h, w⟩
  | .ohwi, [o, h, w, i] => some ⟨o, i, h, w⟩
  | _, _ => none

/-- The shape in which a filter of these extents is stored. -/
def shape : FilterLayout → FilterDims → Shape
  | .oihw, d => [d.outputs, d.inputs, d.height, d.width]
  | .ohwi, d => [d.outputs, d.height, d.width, d.inputs]

/-- Index of the element for output channel `o`, input channel `i`, row `y` and column `x`. -/
def offset (layout : FilterLayout) (d : FilterDims) (o i y x : Nat) : Nat :=
  match layout with
  | .oihw => ((o * d.inputs + i) * d.height + y) * d.width + x
  | .ohwi => ((o * d.height + y) * d.width + x) * d.inputs + i

@[simp] theorem dims?_shape (layout : FilterLayout) (d : FilterDims) :
    layout.dims? (layout.shape d) = some d := by
  cases layout <;> rfl

end FilterLayout

end TensorGraph
