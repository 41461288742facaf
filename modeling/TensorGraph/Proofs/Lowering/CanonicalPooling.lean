import TensorGraph.Guarded.Kernel
import TensorGraph.Lowering.Portable
import TensorGraph.Proofs.Guarded.Window
import TensorGraph.Proofs.Meaning.Canonical
import TensorGraph.Shader.Kernel

/-!
# TensorGraph.Proofs.Lowering.CanonicalPooling

Poolings with their margins spelled out.

* `Pooling.Alike`: poolings that do the same to images of an extent.
* `Operator.LowersAlike`: operators of which both backends make the same.
* `canonicalLayout_pooling`: what the pass makes of a pooling in a graph.
* `Pooling.canonical_form`: where an image with its margins fits a word, ceil mode rounds the number
  of windows up, and spelling the margins out leaves nothing to spell out and changes neither a
  pooling nor its kernels, in whichever stage. `farMargins_overflow` has margins that do not fit.
-/

namespace TensorGraph

open TensorGraph.Graph Pass

namespace Pooling

variable (p : Pooling) (input : Extent)

/-- Two poolings that do the same to images of an extent, in words. -/
structure Alike (input : Extent) (p q : Pooling) : Prop where
  margins : Guarded.effectiveMargins q input = Guarded.effectiveMargins p input
  shape : ∀ (place : Place) (image : ImageShape), image.extent = input →
    Guarded.poolingShape place q [image.toShape] = Guarded.poolingShape place p [image.toShape]
  result : ∀ (α : Type) [Scalar α] (image : ImageShape), image.extent = input →
    ∀ (x : Array α) (out : Extent), Guarded.pooling q x image out = Guarded.pooling p x image out

/-- What ceil mode does to images of an extent: it extends the far side of each axis, and no
other. -/
structure RoundsUp (p : Pooling) (input : Extent) : Prop where
  top : (p.effectiveMargins input).top = (p.margins input).top
  left : (p.effectiveMargins input).left = (p.margins input).left
  rows : ∃ down, (p.effectiveMargins input).bottom = (p.margins input).bottom + down ∧
    RoundedUp ((p.margins input).around input).height p.kernel.height p.stride.height down
  columns : ∃ right, (p.effectiveMargins input).right = (p.margins input).right + right ∧
    RoundedUp ((p.margins input).around input).width p.kernel.width p.stride.width right
  shape : ∀ (place : Place) (image : ImageShape), image.extent = input →
    Guarded.poolingShape place p [image.toShape] = .ok [image.batch, image.channels,
      ceilDiv (((p.margins input).around input).height - p.kernel.height) p.stride.height + 1,
      ceilDiv (((p.margins input).around input).width - p.kernel.width) p.stride.width + 1]

/-- Explicit margins do not depend on an image any more. -/
theorem withExplicitMargins_idem (input' : Extent) :
    (p.withExplicitMargins input).withExplicitMargins input' = p.withExplicitMargins input := rfl

theorem withExplicitMargins_of_explicit (floor : p.ceilMode = false)
    (explicit : p.padding.isExplicit = true) : p.withExplicitMargins input = p := by
  obtain ⟨mode, kernel, stride, padding, ceilMode⟩ := p
  cases floor
  cases padding with
  | explicit margins => rfl
  | symmetric | same => cases explicit

section

variable {p : Pooling} {input : Extent}
  (pixels : p.padding = .same → 0 < input.height ∧ 0 < input.width)
  (some_stride : 0 < p.stride.height ∧ 0 < p.stride.width)
  (measurable : (p.effectiveMargins input).Measurable input)

include pixels some_stride measurable

theorem effectiveMargins_ok :
    Guarded.effectiveMargins p input = .ok (p.effectiveMargins input) :=
  (Guarded.effectiveMargins_agrees p pixels some_stride.1 some_stride.2 id).eq measurable

/-- Shapes and results depend on the margins, and on parameters that stay. -/
theorem withExplicitMargins_alike : Alike input p (p.withExplicitMargins input) := by
  have margins : Guarded.effectiveMargins (p.withExplicitMargins input) input =
      Guarded.effectiveMargins p input := by
    rw [effectiveMargins_ok pixels some_stride measurable]
    rfl
  refine ⟨margins, ?_, ?_⟩
  · rintro place image rfl
    show (do
      let out ← Guarded.windowExtent place image.extent p.kernel p.stride
        (Guarded.effectiveMargins (p.withExplicitMargins image.extent) image.extent)
      return [image.batch, image.channels, out.height, out.width]) = _
    rw [margins]
    rfl
  · rintro α _ image rfl x out
    show (Guarded.effectiveMargins (p.withExplicitMargins image.extent) image.extent >>= _) = _
    rw [margins]
    rfl

theorem roundsUp (ceil : p.ceilMode = true) (some_kernel : 0 < p.kernel.height ∧ 0 < p.kernel.width)
    (fits : p.kernel.height ≤ ((p.margins input).around input).height ∧
      p.kernel.width ≤ ((p.margins input).around input).width) : p.RoundsUp input := by
  have extension (padded kernel stride : Nat) :
      p.extension padded kernel stride = ceilExtension padded kernel stride := if_pos ceil
  have rows := roundedUp some_stride.1 fits.1
  have columns := roundedUp some_stride.2 fits.2
  rw [← extension] at rows columns
  refine ⟨by rw [effectiveMargins_eq], by rw [effectiveMargins_eq],
    ⟨_, by rw [effectiveMargins_eq], rows⟩, ⟨_, by rw [effectiveMargins_eq], columns⟩, ?_⟩
  rintro place image rfl
  have agrees : Guarded.Agrees True (Guarded.poolingShape place p [image.toShape])
      (Guarded.judge place (poolingShape p [image.toShape])) :=
    Guarded.poolingShape_agrees place p
      (fun i (of : some image = some i) => Option.some.inj of ▸ pixels)
      fun _ i (of : some image = some i) => Option.some.inj of ▸ measurable
  rw [agrees.eq trivial, poolingShape_eq some_kernel some_stride fits, p.rows_eq, p.columns_eq,
    rows.count, columns.count]
  rfl

end

end Pooling

variable {α : Type}

/-! ## Both backends -/

/-- The same operator as a pooling. -/
def Operator.withPooling (op : Operator α) (q : Pooling) : Operator α :=
  { op with kind := .pooling q }

/-- Two operators, each in its graph, of which both backends make the same. -/
structure Operator.LowersAlike (g : Graph α) (op : Operator α) (g' : Graph α)
    (op' : Operator α) : Prop where
  device : ∀ n, KernelSpec.ofOperator g' op' n = KernelSpec.ofOperator g op n
  portable : Portable.kernel g' op' = Portable.kernel g op

section

variable {g g' : Graph α} {op : Operator α} {p : Pooling}

/-- The specification for a pooling. -/
theorem ofOperator_pooling (kind : op.kind = .pooling p) (n : Nat) :
    KernelSpec.ofOperator g op n = .ok
      { kind := .pooling (p.withExplicitMargins (Portable.inputExtent g op))
        inputs := op.inputs.map (KernelSpec.operandOf g)
        output := (op.outputs.head?.map g.shape).getD []
        invocations := ((op.outputs.head?.map g.shape).getD []).size
        workgroupSize := n } := by
  obtain ⟨id, k, inputs, outputs⟩ := op
  cases kind
  cases inputs <;> cases outputs <;> rfl

/-- Both backends spell out the margins of a pooling. -/
theorem lowersAlike_withExplicitMargins (kind : op.kind = .pooling p) :
    op.LowersAlike g g (op.withPooling (p.withExplicitMargins (Portable.inputExtent g op))) := by
  obtain ⟨id, k, inputs, outputs⟩ := op
  cases kind
  refine ⟨fun n => ?_, rfl⟩
  rw [ofOperator_pooling rfl, ofOperator_pooling rfl]
  rfl

/-- Backends ask a graph for the tensors of a pooling, and for nothing else. -/
theorem lowersAlike_of_tensors (kind : op.kind = .pooling p)
    (same : ∀ v ∈ op.inputs ++ op.outputs, g'.outline.tensors v = g.outline.tensors v) :
    op.LowersAlike g g' op := by
  have shape (v : VariableId) (hv : v ∈ op.inputs ++ op.outputs) : g'.shape v = g.shape v := by
    rw [Graph.shape_eq, Graph.shape_eq, Outline.shape, Outline.shape, same v hv]
  have operands :
      op.inputs.map (KernelSpec.operandOf g') = op.inputs.map (KernelSpec.operandOf g) :=
    List.map_congr_left fun v hv => by
      have hv := List.mem_append_left op.outputs hv
      rw [KernelSpec.operandOf, KernelSpec.operandOf, shape v hv, isConstant, isConstant,
        Graph.payload?_eq, Graph.payload?_eq, Outline.payload?, Outline.payload?, same v hv]
  have output : op.outputs.head?.map g'.shape = op.outputs.head?.map g.shape :=
    Option.map_congr fun v hv => shape v (List.mem_append_right _ (List.mem_of_mem_head? hv))
  have extent : Portable.inputExtent g' op = Portable.inputExtent g op := by
    unfold Portable.inputExtent Operator.input?
    cases inputs : op.inputs with
    | nil => rfl
    | cons v rest =>
      rw [List.head?_cons, Option.bind_some, Option.bind_some, shape v (by simp [inputs])]
  refine ⟨fun n => ?_, ?_⟩
  · rw [ofOperator_pooling kind, ofOperator_pooling kind, operands, output, extent]
  · rw [Portable.kernel, Portable.kernel, extent]

end

/-! ## The pass -/

section

variable {g : Graph α} {o : OperatorId} {op : Operator α} {p : Pooling}

/-- A pooling of an image as `op` has it in `O₀`, perhaps with its margins spelled out. -/
structure PoolsAs (O₀ : Outline α) (o : OperatorId) (op : Operator α) (q : Pooling)
    (image : ImageShape) (O : Outline α) : Prop where
  operator : ∃ op' p', O.operators o = some op' ∧ op'.kind = .pooling p' ∧
    p'.withExplicitMargins image.extent = q ∧ op'.inputs = op.inputs ∧ op'.outputs = op.outputs
  tensors : ∀ v ∈ op.inputs ++ op.outputs, O.tensors v = O₀.tensors v

theorem PoolsAs.stable [Scalar α] {O₀ : Outline α} {q : Pooling} {image : ImageShape}
    {x : VariableId} (inputs₀ : op.inputs = [x]) (shape₀ : O₀.shape x = image.toShape) :
    Stable (α := α) CanonicalChange (PoolsAs O₀ o op q image) := by
  intro g rank c O' linked sound change h
  obtain ⟨⟨op', p', ho, kind, spelled, inputs, outputs⟩, tensors⟩ := h
  obtain ⟨⟨op₁, op₂, w, hc, collapse, rewritten, _⟩, _⟩ := change
  have live (v : VariableId) (hv : v ∈ op.inputs ++ op.outputs) : g.outline.Live v := by
    rcases List.mem_append.1 hv with hv | hv
    · exact linked.input_live ⟨op', ho, inputs ▸ hv⟩
    · exact linked.output_live ⟨op', ho, outputs ▸ hv⟩
  have kept (v : VariableId) (hv : v ∈ op.inputs ++ op.outputs) : O'.tensors v = O₀.tensors v :=
    (collapse.tensors (live v hv)).trans (tensors v hv)
  refine ⟨?_, kept⟩
  by_cases e : o = c
  · subst e
    cases hc.symm.trans ho
    cases rewritten with
    | pooling p₁ image₁ x₁ kind₁ inputs₁ shape₁ kind' inputs' =>
      cases kind.symm.trans kind₁
      have same_input : x₁ = x := by
        rw [inputs₁, inputs₀] at inputs
        exact List.singleton_inj.1 inputs
      have same_image : image₁ = image := by
        have shapes : g.outline.shape x = O₀.shape x :=
          Outline.shape_congr (tensors x (by simp [inputs₀]))
        rw [← same_input, shape₁, same_input, shape₀] at shapes
        exact Option.some.inj (congrArg ImageShape.ofShape? shapes)
      subst same_image
      refine ⟨op₂, _, collapse.operators_host, kind', ?_, inputs'.trans inputs, ?_⟩
      · rw [Pooling.withExplicitMargins_idem, spelled]
      · rw [collapse.outputs_eq, ← collapse.last_outputs sound ho, outputs]
    | convolution _ _ _ _ kind₁ => cases kind.symm.trans kind₁
    | filter _ _ _ _ _ _ _ _ _ kind₁ => cases kind.symm.trans kind₁
  · exact ⟨op', p', (collapse.operators_other o (by simpa using e)).trans ho, kind, spelled, inputs,
      outputs⟩

theorem PoolsAs.pruned {O₀ O : Outline α} {q : Pooling} {image : ImageShape}
    (h : PoolsAs O₀ o op q image O) : PoolsAs O₀ o op q image O.pruned := by
  obtain ⟨⟨op', p', ho, kind, spelled, inputs, outputs⟩, tensors⟩ := h
  refine ⟨⟨op', p', ho, kind, spelled, inputs, outputs⟩, fun v hv => ?_⟩
  rw [← tensors v hv]
  refine Outline.pruned_tensors ?_
  rcases List.mem_append.1 hv with hv | hv
  · exact .inr (.inl ⟨o, op', ho, inputs ▸ hv⟩)
  · exact .inl ⟨o, op', ho, outputs ▸ hv⟩

/-- The pass spells out the margins of a pooling, and does nothing else to it or to its operands.
Running it again does nothing. -/
theorem canonicalLayout_pooling [Scalar α] (h : g.Checked) (ho : g.operatorAt? o = some op)
    (kind : op.kind = .pooling p) : ∃ report g', canonicalLayout.run g = .ok report g' ∧
      g'.operatorAt? o =
        some (op.withPooling (p.withExplicitMargins (Portable.inputExtent g op))) ∧
      (∀ v ∈ op.inputs ++ op.outputs, g'.outline.tensors v = g.outline.tensors v) ∧
      canonicalLayout.run g' = .ok .nothing g' := by
  obtain ⟨rank, sound⟩ := h.tidy.sound
  obtain ⟨x, w, image, inputs, _, shape, _⟩ := sound.pooling ho kind
  have extent : Portable.inputExtent g op = image.extent := by
    rw [← Graph.shape_eq] at shape
    simp only [Portable.inputExtent, Operator.input?, inputs, List.head?_cons, Option.bind_some,
      shape]
    rfl
  obtain ⟨report, g', run, swept, _⟩ := sweep_run canonicalStep_rule h.tidy
  obtain ⟨⟨op', p', ho', kind', spelled, inputs', outputs'⟩, tensors⟩ :=
    swept.stable _ (PoolsAs.stable inputs shape) (fun _ => PoolsAs.pruned)
      ⟨⟨op, p, ho, kind, rfl, rfl, rfl⟩, fun _ _ => rfl⟩
  obtain ⟨floor, explicit⟩ := (swept.quiet o).pooling ho' kind'
  rw [Pooling.withExplicitMargins_of_explicit _ _ floor explicit] at spelled
  have id : op'.id = op.id :=
    (swept.tidy.linked.operator_id ho').trans (h.tidy.linked.operator_id ho).symm
  refine ⟨report, g', run, ho'.trans ?_, tensors,
    sweep_idle canonicalStep_rule swept.tidy swept.quiet⟩
  obtain ⟨id', k, ins, outs⟩ := op'
  cases id
  cases inputs'
  cases outputs'
  cases kind'
  rw [spelled, extent]
  rfl

end

/-- Where an image with its margins fits a word, ceil mode rounds the number of windows up, to cover
the image. Spelling out the margins of a pooling changes nothing that it does to images of this
extent, and nothing is left to spell out then. Backends make the same kernels of it, and they do so
too behind the pass that spells margins out in a graph, which finds nothing to do a second time. -/
theorem Pooling.canonical_form [Scalar α] (p : Pooling) (input : Extent)
    (pixels : p.padding = .same → 0 < input.height ∧ 0 < input.width)
    (measurable : (p.effectiveMargins input).Measurable input)
    (some_kernel : 0 < p.kernel.height ∧ 0 < p.kernel.width)
    (some_stride : 0 < p.stride.height ∧ 0 < p.stride.width)
    (fits : p.kernel.height ≤ ((p.margins input).around input).height ∧
      p.kernel.width ≤ ((p.margins input).around input).width) :
    Guarded.effectiveMargins p input = .ok (p.effectiveMargins input) ∧
    (p.ceilMode = true → p.RoundsUp input) ∧
    Alike input p (p.withExplicitMargins input) ∧
    (p.withExplicitMargins input).withExplicitMargins input = p.withExplicitMargins input ∧
    ∀ (g : Graph α) (o : OperatorId) (op : Operator α), g.operatorAt? o = some op →
      op.kind = .pooling p → Portable.inputExtent g op = input →
        (∀ n, ∃ s, KernelSpec.ofOperator g op n = .ok s ∧
          s.kind = .pooling (p.withExplicitMargins input)) ∧
        (Portable.kernel g op).params.lookup "padding" =
          some (.naturals (p.effectiveMargins input).toList) ∧
        op.LowersAlike g g (op.withPooling (p.withExplicitMargins input)) ∧
        (g.Checked → ∃ report g', canonicalLayout.run g = .ok report g' ∧
          g'.operatorAt? o = some (op.withPooling (p.withExplicitMargins input)) ∧
          op.LowersAlike g g' (op.withPooling (p.withExplicitMargins input)) ∧
          canonicalLayout.run g' = .ok .nothing g') := by
  refine ⟨effectiveMargins_ok pixels some_stride measurable,
    fun ceil => roundsUp pixels some_stride measurable ceil some_kernel fits,
    withExplicitMargins_alike pixels some_stride measurable, rfl, ?_⟩
  rintro g o op ho kind rfl
  have spelled := lowersAlike_withExplicitMargins (g := g) kind
  refine ⟨fun n => ⟨_, ofOperator_pooling kind n, rfl⟩, ?_, spelled, fun checked => ?_⟩
  · rw [Portable.kernel, kind]
    rfl
  · obtain ⟨report, g', run, there, tensors, again⟩ := canonicalLayout_pooling checked ho kind
    have moved : (op.withPooling (p.withExplicitMargins (Portable.inputExtent g op))).LowersAlike g
        g' (op.withPooling (p.withExplicitMargins (Portable.inputExtent g op))) :=
      lowersAlike_of_tensors rfl tensors
    exact ⟨report, g', run, there, ⟨fun n => (moved.device n).trans (spelled.device n),
      moved.portable.trans spelled.portable⟩, again⟩

/-- A pooling in ceil mode, of three rows and columns two at a time. -/
theorem Pooling.canonical_form_pooledConvolution : ∃ (p : Pooling) (op : Operator Binary32),
    (p.padding = .same → 0 < 3 ∧ 0 < 3) ∧ (p.effectiveMargins ⟨3, 3⟩).Measurable ⟨3, 3⟩ ∧
      (0 < p.kernel.height ∧ 0 < p.kernel.width) ∧ (0 < p.stride.height ∧ 0 < p.stride.width) ∧
      (p.kernel.height ≤ ((p.margins ⟨3, 3⟩).around ⟨3, 3⟩).height ∧
        p.kernel.width ≤ ((p.margins ⟨3, 3⟩).around ⟨3, 3⟩).width) ∧
      p.ceilMode = true ∧ p.RoundsUp ⟨3, 3⟩ ∧ pooledConvolution.Checked ∧
      pooledConvolution.operatorAt? ⟨1⟩ = some op ∧ op.kind = .pooling p ∧
      Portable.inputExtent pooledConvolution op = ⟨3, 3⟩ ∧
      ∃ report g', canonicalLayout.run pooledConvolution = .ok report g' ∧
        g'.operatorAt? ⟨1⟩ = some (op.withPooling ⟨.max, ⟨2, 2⟩, ⟨2, 2⟩,
          .explicit ⟨0, 0, 1, 1⟩, false⟩) ∧
        op.LowersAlike pooledConvolution g' (op.withPooling ⟨.max, ⟨2, 2⟩, ⟨2, 2⟩,
          .explicit ⟨0, 0, 1, 1⟩, false⟩) := by
  let p : Pooling := ⟨.max, ⟨2, 2⟩, ⟨2, 2⟩, .symmetric 0 0, true⟩
  let op : Operator Binary32 := ⟨⟨1⟩, .pooling p, [⟨2⟩], [⟨3⟩]⟩
  have there : pooledConvolution.operatorAt? ⟨1⟩ = some op := rfl
  have extent : Portable.inputExtent pooledConvolution op = ⟨3, 3⟩ := by decide
  obtain ⟨_, ceil, _, _, lowered⟩ := canonical_form (α := Binary32) p ⟨3, 3⟩ (nomatch ·)
    (by decide) (by decide) (by decide) (by decide)
  obtain ⟨_, _, _, spelled⟩ := lowered pooledConvolution ⟨1⟩ op there rfl extent
  obtain ⟨report, g', run, there', alike, _⟩ := spelled pooledConvolution_checked
  exact ⟨p, op, (nomatch ·), by decide, by decide, by decide, by decide, rfl, ceil rfl,
    pooledConvolution_checked, there, rfl, extent, report, g', run, there', alike⟩

/-- Windows of one pixel, with margins of `3 * 2 ^ 62` rows on either side of an image of one. The
image with its margins has more than `2 ^ 64` rows. -/
def Pooling.farMargins : Pooling :=
  ⟨.max, ⟨1, 1⟩, ⟨1, 1⟩, .symmetric 13835058055282163712 0, true⟩

/-- A whole window fits, but neither margins nor a shape are worked out. -/
theorem Pooling.farMargins_overflow :
    (farMargins.kernel.height ≤ ((farMargins.margins ⟨1, 1⟩).around ⟨1, 1⟩).height ∧
      farMargins.kernel.width ≤ ((farMargins.margins ⟨1, 1⟩).around ⟨1, 1⟩).width) ∧
    Guarded.effectiveMargins farMargins ⟨1, 1⟩ = .error (.fault .overflow) ∧
    Guarded.poolingShape (.operator ⟨0⟩) farMargins [[1, 1, 1, 1]] = .error (.fault .overflow) :=
  ⟨by decide, rfl, rfl⟩

end TensorGraph
