import TensorGraph.Proofs.Evaluation.Grid
import TensorGraph.Proofs.Meaning.Refinement

/-!
# TensorGraph.Proofs.Meaning.Canonical

Parameters mean the same in every form that they are written in.

* `reorderFilter_getElem?`: where an element of a filter is after reordering.
* `convolution_reordered`: the convolution with a reordered filter combines the same numbers in
  the same order.
* `canonicalLayout_means`: so the pass keeps every output exactly, for scalars of any kind.
-/

namespace TensorGraph

variable {α : Type} [Scalar α]

open TensorGraph.Graph Edit Pass

/-! ## Kernels -/

namespace Kernel

theorem filled_getElem? (x : Array α) {r : Array α} {i : Nat} (h : i < r.size) :
    (filled x r)[i]? = r[i]? := by
  rw [filled, Array.getElem?_append_left h]

/-- Reordering takes the element at an offset of the one layout to that of the other. -/
theorem reorderFilter_getElem? {w r : Array α} {dims : FilterDims}
    (h : reorderFilter w dims = some r) {o i y x : Nat} (ho : o < dims.outputs)
    (hi : i < dims.inputs) (hy : y < dims.height) (hx : x < dims.width) :
    r[FilterLayout.ohwi.offset dims o i y x]? = w[FilterLayout.oihw.offset dims o i y x]? := by
  obtain ⟨t, made, rfl⟩ := Option.map_eq_some_iff.1 h
  have place : (o, y, x, i) ∈ grid4 dims.outputs dims.height dims.width dims.inputs :=
    mem_grid4.2 ⟨ho, hy, hx, hi⟩
  have bound : FilterLayout.ohwi.offset dims o i y x < t.size := by
    rw [(tabulate_eq_some_iff.1 made).1, grid4_length]
    exact index_lt (index_lt (index_lt ho hy) hx) hi
  have value := (numbered_grid4 _ _ _ _).getElem? made place
  rw [filled_getElem? w bound]
  exact value

theorem convolutionAt_reordered (p : Convolution α) (margins : Margins) (x : Array α)
    (image : ImageShape) {w r : Array α} {dims : FilterDims} (bias : Option (Array α))
    (layout : p.layout = .oihw) (h : reorderFilter w dims = some r)
    (inputs : dims.inputs = image.channels)
    (kernel : (⟨dims.height, dims.width⟩ : Extent) = p.kernel) {o : Nat} (ho : o < dims.outputs)
    (b oy ox : Nat) :
    convolutionAt { p with layout := .ohwi } margins x image r dims bias b o oy ox =
      convolutionAt p margins x image w dims bias b o oy ox := by
  have height : dims.height = p.kernel.height := congrArg Extent.height kernel
  have width : dims.width = p.kernel.width := congrArg Extent.width kernel
  unfold convolutionAt
  refine bind_congr fun start => ?_
  refine (foldlM_hom id (fun acc ⟨i, ky, kx⟩ tap => ?_) start).trans Option.map_id'
  obtain ⟨hi, hky, hkx⟩ := mem_taps tap
  have same := reorderFilter_getElem? h ho (inputs ▸ hi) (height ▸ hky) (width ▸ hkx)
  simp only [layout, same, id_eq, Option.map_id]

/-- The taps of a window are taken in the same order from both layouts. -/
theorem convolution_reordered (p : Convolution α) (x : Array α) (image : ImageShape)
    {w r : Array α} {dims : FilterDims} (bias : Option (Array α)) (out : Extent)
    (layout : p.layout = .oihw) (h : reorderFilter w dims = some r)
    (inputs : dims.inputs = image.channels)
    (kernel : (⟨dims.height, dims.width⟩ : Extent) = p.kernel) :
    convolution { p with layout := .ohwi } x image r (FilterLayout.ohwi.shape dims) bias out =
      convolution p x image w (FilterLayout.oihw.shape dims) bias out := by
  unfold convolution
  rw [layout, FilterLayout.dims?_shape, FilterLayout.dims?_shape]
  refine tabulate_congr (List.forall₂_same.2 fun ⟨b, o, oy, ox⟩ place => ?_)
  have ho : o < dims.outputs := (mem_grid4.1 place).2.1
  exact congrArg (· >>= _) (convolutionAt_reordered p _ x image bias layout h inputs kernel ho b
    oy ox)

theorem convolution_explicit (p : Convolution α) (x : Array α) (image : ImageShape) (w : Array α)
    (filter : Shape) (bias : Option (Array α)) (out : Extent) :
    convolution (p.withExplicitMargins image.extent) x image w filter bias out =
      convolution p x image w filter bias out := by
  unfold convolution
  rfl

theorem pooling_explicit (p : Pooling) (x : Array α) (image : ImageShape) (out : Extent) :
    pooling (p.withExplicitMargins image.extent) x image out = pooling p x image out := by
  unfold pooling
  rfl

end Kernel

/-- Margins that a convolution works out for its image may as well be spelled out. -/
theorem compute_convolution_explicit (p : Convolution α) (image : ImageShape)
    (shapes : List Shape) (out : Shape) (operands : List (Array α)) :
    (OperatorKind.convolution (p.withExplicitMargins image.extent)).compute
      (image.toShape :: shapes) out operands =
    (OperatorKind.convolution p).compute (image.toShape :: shapes) out operands := by
  match shapes, operands with
  | filter :: _, x :: w :: rest =>
    exact congrArg (ImageShape.ofShape? out >>= ·) <| funext fun result =>
      Kernel.convolution_explicit p x image w filter rest.head? ⟨result.height, result.width⟩
  | [], _ | _ :: _, [] | _ :: _, [_] => rfl

theorem compute_convolution_reordered (p : Convolution α) (image : ImageShape)
    (layout : p.layout = .oihw) {dims : FilterDims} {w r : Array α}
    (reorder : Kernel.reorderFilter w dims = some r) (inputs : dims.inputs = image.channels)
    (kernel : (⟨dims.height, dims.width⟩ : Extent) = p.kernel) {shapes : List Shape}
    {out : Shape} {x : Array α} {rest : List (Array α)} :
    (OperatorKind.convolution { p.withExplicitMargins image.extent with layout := .ohwi }).compute
      (image.toShape :: FilterLayout.ohwi.shape dims :: shapes) out (x :: r :: rest) =
    (OperatorKind.convolution p).compute
      (image.toShape :: FilterLayout.oihw.shape dims :: shapes) out (x :: w :: rest) :=
  (compute_convolution_explicit { p with layout := .ohwi } image _ _ _).trans <|
    congrArg (ImageShape.ofShape? out >>= ·) <| funext fun result =>
      Kernel.convolution_reordered p x image rest.head? ⟨result.height, result.width⟩ layout
        reorder inputs kernel

theorem compute_pooling_explicit (p : Pooling) (image : ImageShape) (out : Shape)
    (operands : List (Array α)) :
    (OperatorKind.pooling (p.withExplicitMargins image.extent)).compute [image.toShape] out
      operands =
    (OperatorKind.pooling p).compute [image.toShape] out operands := by
  match operands with
  | [x] =>
    exact congrArg (ImageShape.ofShape? out >>= ·) <| funext fun result =>
      Kernel.pooling_explicit p x image ⟨result.height, result.width⟩
  | [] | _ :: _ :: _ => rfl

/-- The extents of the filter of a convolution. -/
theorem convolution_extents {p : Convolution α} (layout : p.layout = .oihw) {image : ImageShape}
    {dims : FilterDims} {shapes : List Shape} {s : Shape}
    (typed : (OperatorKind.convolution p).outputShape
      (image.toShape :: FilterLayout.oihw.shape dims :: shapes) = .ok s) :
    dims.inputs = image.channels ∧ (⟨dims.height, dims.width⟩ : Extent) = p.kernel := by
  obtain ⟨xs, ws, bias, e, result⟩ := convolutionShape_ok_iff.1 typed
  obtain ⟨image', dims', _, rfl, rfl, _, inputs, kernel, _⟩ := convolutionResult_ok_iff.1 result
  obtain ⟨images, e⟩ := List.cons.inj e
  obtain ⟨filters, _⟩ := List.cons.inj e
  have same : some image = some image' := congrArg ImageShape.ofShape? images
  have same' : some dims = some dims' := by
    rw [layout] at filters
    exact congrArg FilterLayout.oihw.dims? filters
  cases same
  cases same'
  exact ⟨inputs, kernel⟩

/-! ## Changes -/

section

variable {g : Graph α} {rank : OperatorId → Nat} {O' : Outline α} {o : OperatorId}

theorem CanonicalChange.refines (linked : g.Linked) (sound : g.outline.Sound rank)
    (change : CanonicalChange rank g.outline o O') : g.outline.Refines O' := by
  obtain ⟨⟨op, op', w, ho, collapse, rewritten, _⟩, _⟩ := change
  refine collapse.refines linked fun φ before after computes => ?_
  have run := computes o List.mem_cons_self op ho w (collapse.last_outputs sound ho)
  have same {us : List VariableId} (sub : us ⊆ op.inputs) :
      us.map O'.shape = us.map g.outline.shape :=
    List.map_congr_left fun u hu => collapse.shape_eq (linked.input_live ⟨op, ho, sub hu⟩)
  cases rewritten with
  | convolution p image x rest kind inputs shape kind' inputs' =>
    rw [kind, inputs, List.map_cons, shape] at run
    rw [kind', inputs', same (List.Subset.refl _), inputs, List.map_cons, shape,
      compute_convolution_explicit]
    exact run
  | pooling p image x kind inputs shape kind' inputs' =>
    rw [kind, inputs, List.map_singleton, shape] at run
    rw [kind', inputs', same (List.Subset.refl _), inputs, List.map_singleton, shape,
      compute_pooling_explicit]
    exact run
  | filter p image x filter new rest dims weights reordered kind inputs shape layout filter_shape
      weights_eq reorder kind' inputs' new_shape new_payload =>
    have extents : dims.inputs = image.channels ∧
        (⟨dims.height, dims.width⟩ : Extent) = p.kernel := by
      obtain ⟨v, _, typed⟩ := sound.result ho
      rw [kind, inputs, List.map_cons, List.map_cons, shape, filter_shape] at typed
      exact convolution_extents layout typed
    rw [kind, inputs] at run
    simp only [List.map_cons, shape, filter_shape, before.constant weights_eq] at run
    have others : rest.map O'.shape = rest.map g.outline.shape := same fun u hu => by
      rw [inputs]
      exact List.mem_cons_of_mem _ (List.mem_cons_of_mem _ hu)
    have first : O'.shape x = image.toShape := by
      rw [← shape]
      exact collapse.shape_eq (linked.input_live ⟨op, ho, by rw [inputs]; exact List.mem_cons_self⟩)
    rw [kind', inputs']
    simp only [List.map_cons, first, others, new_shape, after.constant new_payload]
    exact (compute_convolution_reordered p image layout reorder extents.1 extents.2).trans run

end

/-- Writing parameters in one form succeeds on every checked graph and keeps every output exactly,
whatever the operations on scalars are. Then all margins are explicit, no pooling is in ceil mode,
and no filter in the wrong order is a constant that only its convolution reads. -/
theorem Graph.canonicalLayout_means {g : Graph α} (h : g.Checked) :
    ∃ report g', canonicalLayout.run g = .ok report g' ∧
      (∀ inputs, g.Fits inputs →
        ∃ outputs, g.evaluate inputs = .ok outputs ∧ g'.evaluate inputs = .ok outputs) ∧
      ∀ o op, g'.operatorAt? o = some op →
        (∀ p, op.kind = .convolution p → p.padding.isExplicit = true ∧
          ∀ filter, op.inputs[1]? = some filter → p.layout = .oihw → g'.isConstant filter = true →
            g'.singleUseConsumer? filter ≠ some o) ∧
        ∀ p, op.kind = .pooling p → p.padding.isExplicit = true ∧ p.ceilMode = false := by
  obtain ⟨report, g', run, swept, _⟩ := sweep_run canonicalStep_rule h.tidy
  refine ⟨report, g', run, swept.evaluate h.tidy (swept.refines CanonicalChange.refines),
    fun o op ho => ⟨fun p kind => ?_, fun p kind => ?_⟩⟩
  · obtain ⟨explicit, fixed⟩ := (swept.quiet o).convolution ho kind
    refine ⟨explicit, fun filter second layout constant single => fixed ?_⟩
    obtain ⟨once, inner⟩ := (singleUseConsumer?_iff swept.tidy.linked).1 single
    match inputs : op.inputs, second with
    | x :: _ :: rest, rfl =>
      exact ⟨layout, x, filter, rest, inputs, isConstant_iff.1 constant, once, inner⟩
  · obtain ⟨floor, explicit⟩ := (swept.quiet o).pooling ho kind
    exact ⟨explicit, floor⟩

/-- A convolution whose margins follow from its image, with a constant filter of two input
channels, and a pooling in ceil mode. -/
def Graph.pooledConvolution : Graph Binary32 :=
  afterCalls .empty
    [.addVariable "x" [1, 2, 3, 3], .addConstant "f" [1, 2, 2, 2] #[1, 2, 3, 4, 5, 6, 7, 8],
      .addVariable "y" [1, 1, 3, 3], .addVariable "z" [1, 1, 2, 2],
      .addOperator (.convolution ⟨⟨2, 2⟩, ⟨1, 1⟩, .same, .oihw, none⟩) [⟨0⟩, ⟨1⟩] [⟨2⟩],
      .addOperator (.pooling ⟨.max, ⟨2, 2⟩, ⟨2, 2⟩, .symmetric 0 0, true⟩) [⟨2⟩] [⟨3⟩],
      .designateInputs [⟨0⟩], .designateOutputs [⟨3⟩]]

theorem Graph.pooledConvolution_checked : pooledConvolution.Checked where
  reachable := Reachable.empty.afterCalls _
  valid := by decide
  inputs_free := by decide

theorem Graph.canonicalLayout_means_pooledConvolution : pooledConvolution.Checked ∧
    pooledConvolution.Fits [Array.replicate 18 1] ∧ ∃ report g' outputs,
      canonicalLayout.run pooledConvolution = .ok report g' ∧
      pooledConvolution.evaluate [Array.replicate 18 1] = .ok outputs ∧
      g'.evaluate [Array.replicate 18 1] = .ok outputs := by
  have fits : pooledConvolution.Fits [Array.replicate 18 1] := by
    show _ = _
    decide
  obtain ⟨report, g', run, same, _⟩ := canonicalLayout_means pooledConvolution_checked
  obtain ⟨outputs, before, after⟩ := same _ fits
  exact ⟨pooledConvolution_checked, fits, report, g', outputs, run, before, after⟩

end TensorGraph
