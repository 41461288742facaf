import TensorGraph.Proofs.Evaluation.Exact
import TensorGraph.Proofs.Evaluation.Grid
import TensorGraph.Proofs.Meaning.Chain
import TensorGraph.Proofs.Meaning.Refinement

/-!
# TensorGraph.Proofs.Meaning.Fusion

A scale and shift per channel means the same inside the weights before it.

* `scaledWeights_getElem?`: every weight is scaled by the factor of its output channel, in either
  layout: `offset_div`.
* `convolution_absorbed`, `linear_absorbed`: a dot product with scaled weights is the scaled dot
  product, whatever lies under a window.
* `affineFusion_means`: so the pass keeps the outputs up to rounding, and what it makes of every
  operator can be told beforehand.
-/

namespace TensorGraph

open TensorGraph.Graph Edit Pass

section

variable {α : Type} [ExactScalar α]

namespace Kernel

/-! ## Weights by output channel -/

/-- The row of a position in rows of length `m`. -/
theorem row_div {o m r : Nat} (hr : r < m) : (o * m + r) / m = o := by
  rw [Nat.mul_comm, Nat.mul_add_div (by omega), Nat.div_eq_of_lt hr, Nat.add_zero]

/-- Output channels are outermost in both layouts. -/
theorem offset_div (layout : FilterLayout) {d : FilterDims} {i y x : Nat} (o : Nat)
    (hi : i < d.inputs) (hy : y < d.height) (hx : x < d.width) :
    layout.offset d o i y x / (d.inputs * d.height * d.width) = o := by
  cases layout with
  | oihw =>
    have place : FilterLayout.oihw.offset d o i y x =
        o * (d.inputs * d.height * d.width) + ((i * d.height + y) * d.width + x) := by
      show ((o * d.inputs + i) * d.height + y) * d.width + x = _
      ring
    rw [place, row_div (index_lt (index_lt hi hy) hx)]
  | ohwi =>
    have place : FilterLayout.ohwi.offset d o i y x =
        o * (d.height * d.width * d.inputs) + ((y * d.width + x) * d.inputs + i) := by
      show ((o * d.height + y) * d.width + x) * d.inputs + i = _
      ring
    have block : d.inputs * d.height * d.width = d.height * d.width * d.inputs := by ring
    rw [block, place, row_div (index_lt (index_lt hy hx) hi)]

theorem scaledWeights_getElem? {weights scale r : Array α}
    (h : scaledWeights weights scale = some r) {i : Nat} {s : α}
    (hs : scale[i / (weights.size / scale.size)]? = some s) :
    r[i]? = weights[i]?.map (· * s) := by
  obtain ⟨size, each⟩ := tabulate_eq_some_iff.1 h
  rw [List.length_zipIdx, Array.length_toList] at size
  cases hw : weights[i]? with
  | none =>
    rw [Array.getElem?_eq_none_iff] at hw
    rw [Array.getElem?_eq_none (size ▸ hw)]
    rfl
  | some w =>
    have entry : weights.toList.zipIdx[i]? = some (w, i) := by
      rw [List.getElem?_zipIdx, Array.getElem?_toList, hw, Option.map_some, Nat.zero_add]
    rw [← each i _ entry]
    simp only [hs]
    rfl

theorem scaledBias_getElem? (bias : Array α) {scale shift : Array α} {c : Nat} {s t : α}
    (hs : scale[c]? = some s) (ht : shift[c]? = some t) :
    (scaledBias bias scale shift)[c]? = bias[c]?.map fun b => b * s + t := by
  simp only [scaledBias, Array.zip, Array.getElem?_zipWith, hs, ht]
  cases bias[c]? <;> rfl

/-! ## Dot products -/

/-- One term of a dot product with scaled weights. -/
theorem product_scaled (x w : Option α) (acc s t : α) :
    (do
      let xv ← x
      let wv ← w.map (· * s)
      return acc * s + t + xv * wv) =
    (do
      let xv ← x
      let wv ← w
      return acc + xv * wv : Option α).map fun v => v * s + t := by
  cases x with
  | none => rfl
  | some xv =>
    cases w with
    | none => rfl
    | some wv =>
      refine congrArg some ?_
      show acc * s + t + xv * (wv * s) = (acc + xv * wv) * s + t
      ring

theorem convolutionAt_scaled (p : Convolution α) (margins : Margins) (x : Array α)
    (image : ImageShape) {w r : Array α} (dims : FilterDims) {bias bias' : Option (Array α)}
    {o : Nat} {s t : α} (start : biasAt bias' o = (biasAt bias o).map fun v => v * s + t)
    (scaled : ∀ i y x, i < image.channels → y < p.kernel.height → x < p.kernel.width →
      r[p.layout.offset dims o i y x]? = w[p.layout.offset dims o i y x]?.map (· * s))
    (b oy ox : Nat) : convolutionAt p margins x image r dims bias' b o oy ox =
      (convolutionAt p margins x image w dims bias b o oy ox).map fun v => v * s + t := by
  unfold convolutionAt
  rw [start]
  cases biasAt bias o with
  | none => rfl
  | some first =>
    refine foldlM_hom (fun v => v * s + t) (fun acc ⟨i, ky, kx⟩ tap => ?_) first
    obtain ⟨hi, hky, hkx⟩ := mem_taps tap
    dsimp only
    cases windowPixel? p.stride margins image oy ox ky kx with
    | none => rfl
    | some place =>
      obtain ⟨iy, ix⟩ := place
      dsimp only
      rw [scaled i ky kx hi hky hkx]
      exact product_scaled _ _ acc s t

/-- An element of a linear operator, before its activation. -/
def linearAt (x : Array α) (features : Nat) (w : Array α) (bias : Option (Array α)) (b o : Nat) :
    Option α := do
  let start ← biasAt bias o
  (List.range features).foldlM (fun acc k => do
    let xv ← x[b * features + k]?
    let wv ← w[o * features + k]?
    return acc + xv * wv) start

theorem linearAt_scaled (x : Array α) (features : Nat) {w r : Array α}
    {bias bias' : Option (Array α)} {o : Nat} {s t : α}
    (start : biasAt bias' o = (biasAt bias o).map fun v => v * s + t)
    (scaled : ∀ k < features, r[o * features + k]? = w[o * features + k]?.map (· * s)) (b : Nat) :
    linearAt x features r bias' b o =
      (linearAt x features w bias b o).map fun v => v * s + t := by
  unfold linearAt
  rw [start]
  cases biasAt bias o with
  | none => rfl
  | some first =>
    refine foldlM_hom (fun v => v * s + t) (fun acc k hk => ?_) first
    rw [scaled k (List.mem_range.1 hk)]
    exact product_scaled _ _ acc s t

/-! ## Kernels that take up a scale and shift -/

theorem coordinate?_row {inner dim b o r : Nat} (ho : o < dim) (hr : r < inner) :
    coordinate? inner dim ((b * dim + o) * inner + r) = some o := by
  rw [coordinate?, if_neg (by omega), row_div hr, Nat.mul_add_mod_of_lt ho]

/-- A kernel with an activation makes of scaled elements what a scale and shift with that activation
makes of its result. -/
theorem axiswiseAffine_tabulate {π : Type} {positions : List π} {index : π → Nat}
    (channel : π → Nat) (numbered : Numbered positions index) {f f' : π → Option α} {y : Array α}
    (made : tabulate positions (fun p => do return Activation.applyTo none (← f p)) = some y)
    {shape : Shape} {dim : Nat} (hdim : shape[1]? = some dim)
    (place : ∀ p ∈ positions, coordinate? (shape.inner 1) dim (index p) = some (channel p))
    {scale shift : Array α} (activation : Option (Activation α))
    (scaled : ∀ p ∈ positions, ∃ s t, scale[channel p]? = some s ∧ shift[channel p]? = some t ∧
      f' p = (f p).map fun v => v * s + t) :
    axiswiseAffine 1 activation y shape scale shift =
      tabulate positions fun p => do return Activation.applyTo activation (← f' p) := by
  unfold axiswiseAffine
  rw [alongAxis_tabulate numbered made hdim place]
  refine tabulate_congr (List.forall₂_same.2 fun p hp => ?_)
  obtain ⟨s, t, hs, ht, e⟩ := scaled p hp
  rw [e]
  cases f p with
  | none => rfl
  | some v =>
    simp only [hs, ht]
    rfl

section

variable {w r scale shift bias y : Array α} {bias? : Option (Array α)}

/-- The bias of an operator is scaled and shifted, wherever it comes from. -/
theorem biasAt_scaled {outputs : Nat} (given : ∀ o < outputs, biasAt bias? o = bias[o]?) {o : Nat}
    (ho : o < outputs) {s t : α} (hs : scale[o]? = some s) (ht : shift[o]? = some t) :
    biasAt (some (scaledBias bias scale shift)) o = (biasAt bias? o).map fun v => v * s + t := by
  rw [given o ho]
  exact scaledBias_getElem? bias hs ht

theorem convolution_absorbed (p : Convolution α) (idle : p.activation = none) (x : Array α)
    (image : ImageShape) {dims : FilterDims} (inputs : dims.inputs = image.channels)
    (kernel : (⟨dims.height, dims.width⟩ : Extent) = p.kernel)
    (size : w.size = (p.layout.shape dims).size) (scale_size : scale.size = dims.outputs)
    (shift_size : shift.size = dims.outputs) (scaled : scaledWeights w scale = some r)
    (given : ∀ o < dims.outputs, biasAt bias? o = bias[o]?) (out : Extent)
    (made : convolution p x image w (p.layout.shape dims) bias? out = some y)
    (activation : Option (Activation α)) :
    convolution { p with activation } x image r (p.layout.shape dims)
        (some (scaledBias bias scale shift)) out =
      axiswiseAffine 1 activation y [image.batch, dims.outputs, out.height, out.width] scale
        shift := by
  have height : dims.height = p.kernel.height := congrArg Extent.height kernel
  have width : dims.width = p.kernel.width := congrArg Extent.width kernel
  have blocks : w.size = dims.outputs * (dims.inputs * dims.height * dims.width) := by
    rw [size]
    cases p.layout with
    | oihw => exact (size4 _ _ _ _).trans (by ring)
    | ohwi => exact (size4 _ _ _ _).trans (by ring)
  unfold convolution at made ⊢
  rw [FilterLayout.dims?_shape] at made ⊢
  simp only [idle] at made
  refine (axiswiseAffine_tabulate (fun q => q.2.1) (numbered_grid4 _ _ _ _) made rfl
    (fun ⟨b, o, oy, ox⟩ place => ?_) activation fun ⟨b, o, oy, ox⟩ place => ?_).symm
  · obtain ⟨_, ho, hy, hx⟩ := mem_grid4.1 place
    have index : flatIndex dims.outputs out.height out.width (b, o, oy, ox) =
        (b * dims.outputs + o) * (out.height * out.width) + (oy * out.width + ox) := by
      show ((b * dims.outputs + o) * out.height + oy) * out.width + ox = _
      ring
    have inner : Shape.inner [image.batch, dims.outputs, out.height, out.width] 1 =
        out.height * out.width := by
      show out.height * (out.width * 1) = _
      rw [Nat.mul_one]
    rw [index, inner]
    exact coordinate?_row ho (index_lt hy hx)
  · have ho : o < dims.outputs := (mem_grid4.1 place).2.1
    obtain ⟨s, hs⟩ := getElem?_total (x := scale) (scale_size ▸ ho)
    obtain ⟨t, ht⟩ := getElem?_total (x := shift) (shift_size ▸ ho)
    refine ⟨s, t, hs, ht, convolutionAt_scaled p _ x image dims (biasAt_scaled given ho hs ht)
      (fun i ky kx hi hky hkx => scaledWeights_getElem? scaled ?_) b oy ox⟩
    have block : w.size / scale.size = dims.inputs * dims.height * dims.width := by
      rw [blocks, scale_size, Nat.mul_div_cancel_left _ (by omega)]
    rw [block, offset_div p.layout o (inputs ▸ hi) (height ▸ hky) (width ▸ hkx)]
    exact hs

theorem linear_absorbed (x : Array α) (batch features : Nat) {outputs : Nat}
    (size : w.size = outputs * features) (scale_size : scale.size = outputs)
    (shift_size : shift.size = outputs) (scaled : scaledWeights w scale = some r)
    (given : ∀ o < outputs, biasAt bias? o = bias[o]?)
    (made : linear none x batch features w outputs bias? = some y)
    (activation : Option (Activation α)) :
    linear activation x batch features r outputs (some (scaledBias bias scale shift)) =
      axiswiseAffine 1 activation y [batch, outputs] scale shift := by
  have unfolded (activation : Option (Activation α)) (w : Array α) (bias : Option (Array α)) :
      linear activation x batch features w outputs bias =
        tabulate ((List.range batch).flatMap fun b => (List.range outputs).map fun o => (b, o))
          fun p => do return Activation.applyTo activation (← linearAt x features w bias p.1 p.2) :=
    tabulate_congr (List.forall₂_same.2 fun p _ => (bind_assoc _ _ _).symm)
  rw [unfolded] at made ⊢
  refine (axiswiseAffine_tabulate Prod.snd (numbered_pairs batch outputs) made rfl
    (fun ⟨b, o⟩ place => ?_) activation fun ⟨b, o⟩ place => ?_).symm
  · obtain ⟨_, ho⟩ : b < batch ∧ o < outputs := by simpa using place
    have single := coordinate?_row (b := b) ho Nat.one_pos
    rwa [Nat.mul_one] at single
  · obtain ⟨_, ho⟩ : b < batch ∧ o < outputs := by simpa using place
    obtain ⟨s, hs⟩ := getElem?_total (x := scale) (scale_size ▸ ho)
    obtain ⟨t, ht⟩ := getElem?_total (x := shift) (shift_size ▸ ho)
    refine ⟨s, t, hs, ht, linearAt_scaled x features (biasAt_scaled given ho hs ht)
      (fun k hk => scaledWeights_getElem? scaled ?_) b⟩
    rw [size, scale_size, Nat.mul_div_cancel_left _ (by omega), row_div hk]
    exact hs

end

end Kernel

/-! ## Changes -/

omit [ExactScalar α] in
theorem fusedKind_convolution {p : Convolution α} (idle : p.activation = none)
    (activation : Option (Activation α)) :
    fusedKind (.convolution p) activation = .convolution { p with activation } := by
  obtain ⟨_, _, _, _, _⟩ := p
  cases idle
  cases activation <;> rfl

/-- A convolution or linear operator with scaled weights and bias computes what the scale and shift
made of its result. -/
theorem compute_absorbed {kind : OperatorKind α} (absorbs : absorbsAffine kind = true)
    {xs ws : Shape} {more : List Shape} {s : Shape}
    (typed : kind.outputShape (xs :: ws :: more) = .ok s)
    {x w r scale shift bias y : Array α} {bias? : Option (Array α)} (size : w.size = ws.size)
    (dim : s[1]? = some scale.size) (shift_size : shift.size = scale.size)
    (scaled : scaledWeights w scale = some r)
    (given : ∀ o < scale.size, Kernel.biasAt bias? o = bias[o]?)
    (made : kind.compute (xs :: ws :: more) s (x :: w :: bias?.toList) = some y)
    (activation : Option (Activation α)) (bs : Shape) :
    (fusedKind kind activation).compute [xs, ws, bs] s [x, r, scaledBias bias scale shift] =
      Kernel.axiswiseAffine 1 activation y s scale shift := by
  have head : bias?.toList.head? = bias? := by cases bias? <;> rfl
  cases kind with
  | convolution p =>
    obtain ⟨_, _, _, shapes, result⟩ := convolutionShape_ok_iff.1 typed
    obtain ⟨image, dims, out, rfl, rfl, _, inputs, kernel, _, rfl⟩ :=
      convolutionResult_ok_iff.1 result
    obtain ⟨rfl, e⟩ := List.cons.inj shapes
    obtain ⟨rfl, _⟩ := List.cons.inj e
    have outputs : scale.size = dims.outputs := (Option.some.inj dim).symm
    have idle : p.activation = none := Option.isNone_iff_eq_none.1 absorbs
    rw [outputs] at given shift_size
    have made : Kernel.convolution p x image w (p.layout.shape dims) bias?.toList.head? out =
        some y := made
    rw [head] at made
    rw [fusedKind_convolution idle]
    exact Kernel.convolution_absorbed p idle x image inputs kernel size outputs shift_size scaled
      given out made activation
  | linear fused =>
    obtain ⟨_, _, _, shapes, result⟩ := linearShape_ok_iff.1 typed
    obtain ⟨batch, features, outputs, rfl, _, rfl, _, rfl⟩ := linearResult_ok_iff.1 result
    obtain ⟨rfl, e⟩ := List.cons.inj shapes
    obtain ⟨rfl, _⟩ := List.cons.inj e
    have count : scale.size = outputs := (Option.some.inj dim).symm
    have idle : fused = none := Option.isNone_iff_eq_none.1 absorbs
    rw [count] at given shift_size
    have made : Kernel.linear fused x batch (Shape.size features) w outputs bias?.toList.head? =
        some y := made
    rw [head, idle] at made
    have kind : fusedKind (.linear fused) activation = .linear activation := by
      rw [idle]
      cases activation <;> rfl
    rw [kind]
    exact Kernel.linear_absorbed x batch (Shape.size features) (size.trans (by simp)) count
      shift_size scaled given made activation
  | _ => cases absorbs

variable {g : Graph α} {rank : OperatorId → Nat} {O' : Outline α} {o p : OperatorId}
  {producer fused : Operator α} {w : VariableId}

/-- The buffers of the operands of a producer with constant weights. -/
theorem Weighted.operands {O : Outline α} {channels : Nat} {operands : WeightedOperands α}
    (h : Weighted O producer channels operands) {φ : VariableId → Array α}
    (assigned : O.Assigned φ) : ∃ bias? : Option (Array α),
      producer.inputs.map φ = φ operands.x :: operands.weights :: bias?.toList ∧
      ∀ o < channels, Kernel.biasAt bias? o = operands.bias[o]? := by
  cases h with
  | plain inputs weights bias =>
    refine ⟨none, ?_, fun o ho => ?_⟩
    · rw [inputs, List.map_cons, List.map_singleton, assigned.constant weights]
      rfl
    · rw [bias, Array.getElem?_replicate, if_pos ho]
      rfl
  | biased b inputs weights bias =>
    refine ⟨some operands.bias, ?_, fun o _ => rfl⟩
    rw [inputs]
    simp only [List.map_cons, List.map_nil, assigned.constant weights, assigned.constant bias]
    rfl

theorem Absorbed.refines (linked : g.Linked) (sound : g.outline.Sound rank)
    (hp : g.operatorAt? p = some producer)
    (collapse : Collapse rank g.outline O' p o [o] fused w)
    (absorbs : absorbsAffine producer.kind = true)
    (h : Absorbed g.outline O' o producer fused) : g.outline.Refines O' := by
  obtain ⟨op, activation, v, s, b, weightId, biasId, operands, scale, shift, weights, ho, kind,
    inputs, scale_eq, shift_eq, outputs, weighted, scaled, kind', inputs', shape', weights',
    bias'⟩ := h
  refine collapse.refines linked fun φ before after computes => ?_
  have opOutputs := collapse.last_outputs sound ho
  have first := computes p List.mem_cons_self producer hp v outputs
  have second := computes o (List.mem_cons_of_mem p List.mem_cons_self) op ho w opOutputs
  -- The shapes of the parameters of `op` give the number of channels.
  obtain ⟨_, _, _, _, dim, e, e', same, scale_shape, shift_shape, hdim⟩ :=
    sound.axiswiseAffine ho kind
  cases inputs.symm.trans e
  cases opOutputs.symm.trans e'
  have scale_size : scale.size = dim := by
    rw [payload?_size linked scale_eq, scale_shape]
    exact Nat.mul_one dim
  have shift_size : shift.size = dim := by
    rw [payload?_size linked shift_eq, shift_shape]
    exact Nat.mul_one dim
  rw [kind, inputs] at second
  simp only [List.map_cons, List.map_nil, before.constant scale_eq, before.constant shift_eq]
    at second
  obtain ⟨v', outputs', typed⟩ := sound.result hp
  cases outputs.symm.trans outputs'
  obtain ⟨rest, producerInputs, _⟩ := weighted.inputs
  obtain ⟨bias?, buffers, given⟩ := weighted.operands before
  rw [buffers] at first
  rw [producerInputs, List.map_cons, List.map_cons] at first typed
  have size := payload?_size linked weighted.weights_eq
  have x_shape : O'.shape operands.x = g.outline.shape operands.x :=
    collapse.shape_eq (linked.input_live ⟨producer, hp, by rw [producerInputs]; simp⟩)
  rw [kind', inputs']
  simp only [List.map_cons, List.map_nil, after.constant weights', after.constant bias', x_shape,
    shape', ← same]
  rw [← same, ← scale_size] at hdim
  exact (compute_absorbed absorbs typed size hdim (shift_size.trans scale_size.symm) scaled given
    first activation _).trans second

end

variable {α : Type} [s : Scalar α]

theorem AffineChange.refines (exact : Scalar.IsExact α) {g : Graph α} {rank : OperatorId → Nat}
    {O' : Outline α} {o : OperatorId} (linked : g.Linked) (sound : g.outline.Sound rank)
    (change : AffineChange rank g.outline o O') : g.outline.Refines O' := by
  obtain ⟨exact, rfl⟩ := exact
  obtain ⟨p, producer, fused, w, hp, collapse, absorbs, absorbed, _⟩ := change
  exact absorbed.refines linked sound hp collapse absorbs

/-- Taking up scales and shifts succeeds on every checked graph, and keeps every output where
scalars are those of a field. Then no constant scale and shift is left that alone reads the result
of a convolution or linear operator without activation and with constant weights. Such an operator
has taken up the whole chain of them behind it: every output channel of its weights is scaled, its
bias is scaled and shifted, and it has the activation and the result of the last one. Operators that
are in no chain are as they were. -/
theorem Graph.affineFusion_means {g : Graph α} (h : g.Checked) :
    ∃ report g', affineFusion.run g = .ok report g' ∧
      (Scalar.IsExact α → ∀ inputs, g.Fits inputs →
        ∃ outputs, g.evaluate inputs = .ok outputs ∧ g'.evaluate inputs = .ok outputs) ∧
      (∀ v p o producer reader, g'.producer? v = some p → g'.singleUseConsumer? v = some o →
        g'.operatorAt? p = some producer → g'.operatorAt? o = some reader →
        absorbsAffine producer.kind = true → (∀ u ∈ producer.inputs.tail, g'.payload? u ≠ none) →
        (∀ u ∈ reader.inputs.tail, g'.payload? u ≠ none) →
        ∀ activation, reader.kind ≠ .axiswiseAffine 1 activation) ∧
      (∀ p os host, g.outline.AffineChain p os host →
        ∃ more host', g.outline.Folded g'.outline p (os ++ more) host') ∧
      ∀ q, (∀ p os host, g.outline.AffineChain p os host → q ≠ p ∧ q ∉ os) →
        g'.operatorAt? q = g.operatorAt? q := by
  obtain ⟨report, g', run, swept, _⟩ := sweep_run fuseAffineStep_rule h.tidy
  obtain ⟨rank, sound⟩ := h.tidy.sound
  obtain ⟨rank', sound'⟩ := swept.tidy.sound
  have folded : g.outline.FoldedInto g'.outline := swept.stable g.outline.FoldedInto
    (fun linked' sound' change before => change.folds linked' sound' before sound)
    (fun _ before => before.pruned) (Outline.foldedInto_refl _)
  refine ⟨report, g', run,
    fun exact => swept.evaluate h.tidy (swept.refines (AffineChange.refines exact)),
    fun v p o producer reader produced single hp ho absorbs constants parameters a kind => ?_,
    fun _ _ _ => folded.settled sound sound' swept.quiet, fun q alone => ?_⟩
  · obtain ⟨once, inner⟩ := (singleUseConsumer?_iff swept.tidy.linked).1 single
    exact swept.quiet o v p producer reader
      ⟨(producer?_iff swept.tidy.linked).1 produced, once, inner⟩ hp ho
      ⟨⟨a, kind⟩, absorbs, fun u hu => payload?_eq g' u ▸ parameters u hu,
        fun u hu => payload?_eq g' u ▸ constants u hu⟩
  · rcases folded.each q with same | ⟨p, os, host, mem, ⟨chain⟩⟩
    · exact same.operator
    · obtain ⟨first, second⟩ := alone p os host chain
      exact (mem.elim first second).elim

/-- A convolution without bias and two scales with shifts after it, the second one with an
activation. -/
def Graph.scaledConvolution : Graph ℚ :=
  afterCalls .empty
    [.addVariable "x" [1, 2, 2, 2],
      .addConstant "f" [2, 2, 1, 2] #[1, 2, 3, 4, 5, 6, 7, 8], .addVariable "y" [1, 2, 2, 1],
      .addConstant "s" [2] #[2, 3], .addConstant "b" [2] #[1, -1], .addVariable "z" [1, 2, 2, 1],
      .addVariable "w" [1, 2, 2, 1],
      .addOperator (.convolution ⟨⟨1, 2⟩, ⟨1, 1⟩, .symmetric 0 0, .oihw, none⟩) [⟨0⟩, ⟨1⟩] [⟨2⟩],
      .addOperator (.axiswiseAffine 1 none) [⟨2⟩, ⟨3⟩, ⟨4⟩] [⟨5⟩],
      .addOperator (.axiswiseAffine 1 (some .relu)) [⟨5⟩, ⟨4⟩, ⟨3⟩] [⟨6⟩],
      .designateInputs [⟨0⟩], .designateOutputs [⟨6⟩]]

theorem Graph.scaledConvolution_checked : scaledConvolution.Checked where
  reachable := Reachable.empty.afterCalls _
  valid := by decide
  inputs_free := by decide

/-- Its convolution with other weights, another bias, and another result. -/
def AffineHost.scaledConvolution (activation : Option (Activation ℚ)) (weights bias : Array ℚ)
    (result : VariableId) : AffineHost ℚ :=
  ⟨.convolution ⟨⟨1, 2⟩, ⟨1, 1⟩, .symmetric 0 0, .oihw, activation⟩, ⟨⟨0⟩, ⟨1⟩, weights, bias⟩,
    result⟩

theorem AffineHost.scaledConvolution_chain :
    Graph.scaledConvolution.outline.AffineChain ⟨0⟩ [⟨1⟩, ⟨2⟩]
      (scaledConvolution (some .relu) #[2, 4, 6, 8, -15, -18, -21, -24] #[3, 4] ⟨6⟩) := by
  let O := Graph.scaledConvolution.outline
  have linked := Graph.scaledConvolution_checked.tidy.linked
  have host : O.operators ⟨0⟩ = some ⟨⟨0⟩, .convolution ⟨⟨1, 2⟩, ⟨1, 1⟩, .symmetric 0 0, .oihw,
    none⟩, [⟨0⟩, ⟨1⟩], [⟨2⟩]⟩ := rfl
  have filter : O.payload? ⟨1⟩ = some #[1, 2, 3, 4, 5, 6, 7, 8] := by decide
  have s : O.payload? ⟨3⟩ = some #[2, 3] := by decide
  have b : O.payload? ⟨4⟩ = some #[1, -1] := by decide
  have first : O.TakesUp 2 ⟨1⟩ (scaledConvolution none #[1, 2, 3, 4, 5, 6, 7, 8] #[0, 0] ⟨2⟩)
      (scaledConvolution none #[2, 4, 6, 8, 15, 18, 21, 24] #[1, -1] ⟨5⟩) := by
    obtain ⟨once, inner⟩ := (singleUseConsumer?_iff (v := ⟨2⟩) (o := ⟨1⟩) linked).1
      (by decide)
    have bias : scaledBias #[0, 0] #[2, 3] #[1, -1] = (#[1, -1] : Array ℚ) := by decide +kernel
    have live : O.operators ⟨1⟩ = some ⟨⟨1⟩, .axiswiseAffine 1 none, [⟨2⟩, ⟨3⟩, ⟨4⟩], [⟨5⟩]⟩ := rfl
    rw [← bias]
    exact .intro rfl once inner live rfl rfl rfl s b rfl (by decide +kernel)
  have second : O.TakesUp 2 ⟨2⟩
      (scaledConvolution none #[2, 4, 6, 8, 15, 18, 21, 24] #[1, -1] ⟨5⟩)
      (scaledConvolution (some .relu) #[2, 4, 6, 8, -15, -18, -21, -24] #[3, 4] ⟨6⟩) := by
    obtain ⟨once, inner⟩ := (singleUseConsumer?_iff (v := ⟨5⟩) (o := ⟨2⟩) linked).1
      (by decide)
    have bias : scaledBias #[1, -1] #[1, -1] #[2, 3] = (#[3, 4] : Array ℚ) := by decide +kernel
    have live : O.operators ⟨2⟩ =
        some ⟨⟨2⟩, .axiswiseAffine 1 (some .relu), [⟨5⟩, ⟨4⟩, ⟨3⟩], [⟨6⟩]⟩ := rfl
    rw [← bias]
    exact .intro rfl once inner live rfl rfl rfl b s rfl (by decide +kernel)
  have weighted : Weighted O ⟨⟨0⟩, .convolution ⟨⟨1, 2⟩, ⟨1, 1⟩, .symmetric 0 0, .oihw, none⟩,
      [⟨0⟩, ⟨1⟩], [⟨2⟩]⟩ 2 ⟨⟨0⟩, ⟨1⟩, #[1, 2, 3, 4, 5, 6, 7, 8], #[0, 0]⟩ := .plain rfl filter rfl
  exact .snoc (.one host rfl weighted first) second

theorem Graph.affineFusion_means_scaledConvolution : scaledConvolution.Checked ∧
    scaledConvolution.Fits [Array.replicate 8 (1 / 2)] ∧ Scalar.IsExact ℚ ∧
      scaledConvolution.outline.AffineChain ⟨0⟩ [⟨1⟩, ⟨2⟩]
        (.scaledConvolution (some .relu) #[2, 4, 6, 8, -15, -18, -21, -24] #[3, 4] ⟨6⟩) ∧
      ∃ report g' outputs, affineFusion.run scaledConvolution = .ok report g' ∧
        scaledConvolution.evaluate [Array.replicate 8 (1 / 2)] = .ok outputs ∧
        g'.evaluate [Array.replicate 8 (1 / 2)] = .ok outputs ∧
        g'.operatorAt? ⟨1⟩ = none ∧ g'.operatorAt? ⟨2⟩ = none := by
  have fits : scaledConvolution.Fits [Array.replicate 8 (1 / 2)] := by
    show _ = _
    decide
  have chain := AffineHost.scaledConvolution_chain
  obtain ⟨report, g', run, same, _, taken, _⟩ := affineFusion_means scaledConvolution_checked
  obtain ⟨outputs, before, after⟩ := same isExact_rat _ fits
  obtain ⟨more, host, ⟨_, gone⟩⟩ := taken _ _ _ chain
  exact ⟨scaledConvolution_checked, fits, isExact_rat, chain, report, g', outputs, run, before,
    after, gone ⟨1⟩ (by simp), gone ⟨2⟩ (by simp)⟩

end TensorGraph
