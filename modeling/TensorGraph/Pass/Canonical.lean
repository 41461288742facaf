import TensorGraph.Evaluation.Kernel
import TensorGraph.Pass.Basic

/-!
# TensorGraph.Pass.Canonical

One form for parameters that can be written in several ways: margins spelled out, no pooling in
ceil mode, and filters with their input channels innermost.

A filter is reordered when it is a constant that only its convolution reads.
-/

namespace TensorGraph.Pass

variable {α : Type} [Scalar α]

/-- The filter of a convolution in the other order, if it may be reordered: its shape and its
payload. -/
def reorderedFilter? (g : Graph α) (o : OperatorId) (p : Convolution α) (filter : VariableId) :
    Option (Shape × Array α) := do
  if p.layout = .oihw ∧ g.singleUseConsumer? filter = some o then
    let payload ← g.payload? filter
    let dims ← FilterLayout.oihw.dims? (g.shape filter)
    let reordered ← Kernel.reorderFilter payload dims
    return (FilterLayout.ohwi.shape dims, reordered)
  else none

def canonicalConvolution (op : Operator α) (p : Convolution α) (image : ImageShape)
    (report : PassReport) : Edit α PassReport := do
  let g ← get
  let explicit := p.withExplicitMargins ⟨image.height, image.width⟩
  let filter? := do
    let filter ← op.inputs[1]?
    let (shape, payload) ← reorderedFilter? g op.id p filter
    return (filter, shape, payload)
  match filter? with
  | some (filter, shape, payload) =>
    let reordered ← Edit.addConstant (g.derivedName filter "ohwi") shape payload
    Edit.replaceInput op.id filter reordered
    Edit.setKind op.id (.convolution { explicit with layout := .ohwi })
    return report.record 0
  | none =>
    if p.padding.isExplicit then return report
    else
      Edit.setKind op.id (.convolution explicit)
      return report.record 0

def canonicalPooling (op : Operator α) (p : Pooling) (image : ImageShape) (report : PassReport) :
    Edit α PassReport := do
  if p.ceilMode || !p.padding.isExplicit then
    Edit.setKind op.id (.pooling (p.withExplicitMargins ⟨image.height, image.width⟩))
    return report.record 0
  else return report

/-- Only operators on images have parameters of this kind. -/
def canonicalStep (op : Operator α) (report : PassReport) : Edit α PassReport := do
  let g ← get
  match op.input?.bind fun x => ImageShape.ofShape? (g.shape x) with
  | none => return report
  | some image =>
    match op.kind with
    | .convolution p => canonicalConvolution op p image report
    | .pooling p => canonicalPooling op p image report
    | _ => return report

def canonicalLayout : Pass α := ⟨"normalize_layout", sweep canonicalStep⟩

end TensorGraph.Pass
