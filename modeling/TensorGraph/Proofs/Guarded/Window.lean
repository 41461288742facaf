import TensorGraph.Guarded.Window
import TensorGraph.Proofs.Guarded.Basic
import TensorGraph.Proofs.Operator.Windows

/-!
# TensorGraph.Proofs.Guarded.Window

The arithmetic of windows in words, beside the exact one.

* `Margins.Measurable`, `OperatorKind.Measurable`: where the numbers of the shape rules fit a word.
* `resolve_agrees`, `effectiveMargins_agrees`: the margins around an image.
* `outputShape_agrees`: the shape of a result, and the error where the operands do not fit.
* `overWindow_agrees`: the pixels under a window are the ones that are not over padding.
* `OperatorKind.outputShape_same`: as long as numbers fit, the convention `same` makes
  `⌈input / stride⌉` windows along each axis, except in ceil mode where pixels lie behind the last
  one of them. `sparsePooling_exceeds` has such pixels.
-/

namespace TensorGraph

/-- An image and its margins together fit a word along each axis. -/
def Margins.Measurable (m : Margins) (input : Extent) : Prop :=
  (m.around input).height < Guarded.wordLimit ∧ (m.around input).width < Guarded.wordLimit

instance (m : Margins) (input : Extent) : Decidable (m.Measurable input) :=
  inferInstanceAs (Decidable (_ ∧ _))

/-- The numbers that the shape rule of a kind takes fit a word: an image with its margins, the
features of a linear operator, and both sizes of a reshape. -/
def OperatorKind.Measurable {α : Type} (kind : OperatorKind α) (shapes : List Shape) : Prop :=
  match kind with
  | .convolution p => ∀ image ∈ shapes.head?.bind ImageShape.ofShape?,
      (p.margins image.extent).Measurable image.extent
  | .pooling p => ∀ image ∈ shapes.head?.bind ImageShape.ofShape?,
      (p.effectiveMargins image.extent).Measurable image.extent
  | .linear _ => ∀ x ∈ shapes.head?, Shape.Countable x.tail
  | .reshape shape => shape.Countable ∧ ∀ x ∈ shapes.head?, Shape.Countable x
  | _ => True

instance {α : Type} (kind : OperatorKind α) (shapes : List Shape) :
    Decidable (kind.Measurable shapes) :=
  match kind with
  | .convolution _ => inferInstanceAs (Decidable (∀ image ∈ Option.bind _ _, _))
  | .pooling _ => inferInstanceAs (Decidable (∀ image ∈ Option.bind _ _, _))
  | .linear _ => inferInstanceAs (Decidable (∀ x ∈ shapes.head?, _))
  | .reshape _ => inferInstanceAs (Decidable (_ ∧ ∀ x ∈ shapes.head?, _))
  | .activation _ | .batchNormalization _ | .responseNormalization _ | .elementwiseAdd _
  | .scalarAffine _ _ | .axiswiseAffine _ _ | .softmax _ => .isTrue ⟨⟩

namespace Guarded

variable {α σ : Type} {free : Prop}

/-! ## Margins -/

section

variable {input kernel stride : Extent}

theorem samePadding_agrees {input kernel stride : Nat} (some_pixel : 0 < input)
    (positive : 0 < stride)
    (fits : free → input + (TensorGraph.samePadding input kernel stride).1 +
      (TensorGraph.samePadding input kernel stride).2 < wordLimit) :
    Agrees free (samePadding input kernel stride)
      (.ok (TensorGraph.samePadding input kernel stride)) := by
  rw [padded_samePadding] at fits
  have windows : ceilQuotient input stride = .ok (ceilDiv input stride) :=
    if_neg (Nat.ne_of_gt positive)
  rw [samePadding, Graph.except_bind_ok windows,
    Graph.except_bind_ok (minus_ok (ceilDiv_pos some_pixel positive))]
  refine (flat_agrees fun h => Nat.lt_of_le_of_lt (Nat.le_max_right _ _) (fits h)).step ?_
  rw [Graph.except_bind_ok (minus_ok (Nat.div_le_self _ 2))]
  exact .refl _

/-- Margins around an image. By the convention `same` it has to have pixels: without them there
would be no window to leave out. -/
theorem resolve_agrees (p : Padding) (pixels : p = .same → 0 < input.height ∧ 0 < input.width)
    (rows : 0 < stride.height) (columns : 0 < stride.width)
    (fits : free → (p.resolve input kernel stride).Measurable input) :
    Agrees free (resolve p input kernel stride) (.ok (p.resolve input kernel stride)) := by
  cases p with
  | explicit margins => exact .refl _
  | symmetric v h => exact .refl _
  | same =>
    obtain ⟨height, width⟩ := pixels rfl
    exact (samePadding_agrees height rows fun h => (fits h).1).step
      ((samePadding_agrees width columns fun h => (fits h).2).step (.refl _))

theorem padded_agrees {input before after : Nat}
    (fits : free → input + before + after < wordLimit) :
    Agrees free (padded input before after) (.ok (input + before + after)) :=
  (plus_agrees fun h => Nat.lt_of_le_of_lt (Nat.le_add_right _ after) (fits h)).step
    (plus_agrees fits)

theorem extended_agrees {input before after kernel stride : Nat} (positive : 0 < stride)
    (fits : free → input + before +
      (after + ceilExtension (input + before + after) kernel stride) < wordLimit) :
    Agrees free (extended input before after kernel stride)
      (.ok (after + ceilExtension (input + before + after) kernel stride)) := by
  unfold extended
  refine (padded_agrees fun h => Nat.lt_of_le_of_lt (by omega) (fits h)).step ?_
  unfold ceilExtension at fits ⊢
  by_cases short : input + before + after < kernel
  · rw [if_pos short, if_pos (.inl short)]
    exact .refl _
  · rw [if_neg short, Graph.except_bind_ok (minus_ok (Nat.not_lt.1 short)),
      Graph.except_bind_ok (remainder_ok _ (Nat.ne_of_gt positive))]
    by_cases even : (input + before + after - kernel) % stride = 0
    · rw [if_pos even, if_pos (.inr even)]
      exact .refl _
    · have part : ¬(input + before + after < kernel ∨
          (input + before + after - kernel) % stride = 0) := by
        simp only [short, even, or_self, not_false_eq_true]
      have below := Nat.le_of_lt (Nat.mod_lt (input + before + after - kernel) positive)
      rw [if_neg even, Graph.except_bind_ok (minus_ok below), if_neg part]
      rw [if_neg part] at fits
      exact plus_agrees fun h => Nat.lt_of_le_of_lt (Nat.le_add_left _ _) (fits h)

theorem effectiveMargins_agrees (p : Pooling)
    (pixels : p.padding = .same → 0 < input.height ∧ 0 < input.width)
    (rows : 0 < p.stride.height) (columns : 0 < p.stride.width)
    (fits : free → (p.effectiveMargins input).Measurable input) :
    Agrees free (effectiveMargins p input) (.ok (p.effectiveMargins input)) := by
  unfold effectiveMargins
  have base (h : free) : (p.padding.resolve input p.kernel p.stride).Measurable input := by
    obtain ⟨tall, wide⟩ := fits h
    rw [p.rows_eq] at tall
    rw [p.columns_eq] at wide
    exact ⟨Nat.lt_of_le_of_lt (Nat.le_add_right _ _) tall,
      Nat.lt_of_le_of_lt (Nat.le_add_right _ _) wide⟩
  refine (resolve_agrees p.padding pixels rows columns base).step ?_
  unfold Pooling.effectiveMargins at fits ⊢
  cases ceil : p.ceilMode with
  | false => exact .refl _
  | true =>
    rw [ceil] at fits
    exact (extended_agrees rows fun h => (fits h).1).step
      ((extended_agrees columns fun h => (fits h).2).step (.refl _))

end

/-! ## Shapes -/

theorem judge_bind {β γ : Type} (place : Place) (c : ShapeCheck β) (k : β → ShapeCheck γ) :
    judge place (c >>= k) = judge place c >>= fun x => judge place (k x) := by
  cases c <;> rfl

theorem judge_require {place : Place} {c : Bool} {flaw : ShapeFlaw} (h : c = true) :
    judge place (.require c flaw) = .ok ⟨⟩ := by
  rw [h]
  rfl

theorem windowCount_refused {place : Place} {flaw : ShapeFlaw} {length kernel stride : Nat}
    (h : checkWindows? length kernel stride = none) :
    windowCount place flaw length kernel stride = .error (.error (.shapeMismatch place flaw)) := by
  unfold checkWindows? at h
  split at h
  · next short =>
    rw [windowCount, decide_eq_false (Nat.not_le.2 short)]
    rfl
  · cases h

theorem windowCount_agrees {place : Place} {flaw : ShapeFlaw} {length kernel stride count : Nat}
    (some_kernel : 0 < kernel) (positive : 0 < stride) (fits : free → length < wordLimit)
    (h : checkWindows? length kernel stride = some count) :
    Agrees free (windowCount place flaw length kernel stride) (.ok count) := by
  unfold checkWindows? at h
  split at h
  · cases h
  · next short =>
    have whole : kernel ≤ length := Nat.not_lt.1 short
    cases h
    rw [windowCount, Graph.except_bind_ok (judge_require (decide_eq_true whole)),
      Graph.except_bind_ok (minus_ok whole),
      Graph.except_bind_ok (quotient_ok _ (Nat.ne_of_gt positive))]
    refine plus_agrees fun h => Nat.lt_of_le_of_lt ?_ (fits h)
    have steps := Nat.div_le_self (length - kernel) stride
    omega

/-- The margins are asked for only where the strides are positive. -/
theorem windowExtent_agrees (place : Place) {input kernel stride : Extent}
    {margins : Unit → Margins} {guarded : Guarded Margins}
    (around : 0 < stride.height → 0 < stride.width → Agrees free guarded (.ok (margins ⟨⟩)))
    (fits : free → (margins ⟨⟩).Measurable input) :
    Agrees free (windowExtent place input kernel stride guarded)
      (judge place (TensorGraph.windowExtent input kernel stride margins)) := by
  unfold windowExtent TensorGraph.windowExtent
  rw [judge_bind]
  refine .bind (.refl _) fun _ checked => ?_
  have positive : (0 < kernel.height ∧ 0 < kernel.width) ∧
      0 < stride.height ∧ 0 < stride.width := by
    have holds : (kernel.height ≠ 0 && kernel.width ≠ 0 && stride.height ≠ 0 &&
        stride.width ≠ 0) = true := by
      by_contra fails
      rw [Bool.not_eq_true] at fails
      rw [fails] at checked
      cases checked
    simpa only [Bool.and_eq_true, decide_eq_true_eq, Nat.pos_iff_ne_zero, and_assoc] using holds
  obtain ⟨⟨tall, wide⟩, rows, columns⟩ := positive
  refine (around rows columns).step ((padded_agrees fun h => (fits h).1).step ?_)
  dsimp only
  cases vertical : checkWindows? (input.height + (margins ⟨⟩).top + (margins ⟨⟩).bottom)
      kernel.height stride.height with
  | none =>
    rw [windowCount_refused vertical]
    exact .refl _
  | some height =>
    refine (windowCount_agrees tall rows (fun h => (fits h).1) vertical).step
      ((padded_agrees fun h => (fits h).2).step ?_)
    cases horizontal : checkWindows? (input.width + (margins ⟨⟩).left + (margins ⟨⟩).right)
        kernel.width stride.width with
    | none =>
      rw [windowCount_refused horizontal]
      exact .refl _
    | some width =>
      exact (windowCount_agrees wide columns (fun h => (fits h).2) horizontal).step (.refl _)

theorem image_positive {image : ImageShape} (h : 0 ∉ image.toShape) :
    0 < image.height ∧ 0 < image.width := by
  simp only [ImageShape.toShape, List.mem_cons, not_or] at h
  omega

theorem images_positive {shapes : List Shape} (positive : ∀ s ∈ shapes, 0 ∉ s) :
    ∀ image ∈ shapes.head?.bind ImageShape.ofShape?, 0 < image.height ∧ 0 < image.width := by
  intro image h
  obtain ⟨x, first, image_of⟩ := Option.bind_eq_some_iff.1 h
  obtain rfl := ofShape?_eq_some.1 image_of
  exact image_positive (positive _ (List.mem_of_mem_head? first))

theorem checkImage_judged {place : Place} {x : Shape} {image : ImageShape}
    (h : judge place (checkImage x) = .ok image) : ImageShape.ofShape? x = some image := by
  unfold checkImage at h
  split at h
  · next found =>
    cases h
    exact found
  · cases h

/-- The rule of a convolution for an image, a filter and a bias if there is one. -/
theorem convolutionResult_agrees (place : Place) (p : Convolution α) {x w : Shape}
    (bias : Option Shape) (pixels : ∀ image ∈ ImageShape.ofShape? x,
      p.padding = .same → 0 < image.height ∧ 0 < image.width)
    (fits : free → ∀ image ∈ ImageShape.ofShape? x,
      (p.margins image.extent).Measurable image.extent) :
    Agrees free (do
        let image ← judge place (checkImage x)
        match p.layout.dims? w with
        | none => judge place (.error (.filterRank w))
        | some dims =>
          judge place (.require (dims.inputs == image.channels)
            (.filterChannels dims.inputs x image.channels))
          judge place (.require (⟨dims.height, dims.width⟩ == p.kernel)
            (.filterExtent ⟨dims.height, dims.width⟩ p.kernel))
          checkBias place dims.outputs bias
          let out ← windowExtent place image.extent p.kernel p.stride
            (resolve p.padding image.extent p.kernel p.stride)
          return [image.batch, dims.outputs, out.height, out.width])
      (judge place (convolutionResult p x w bias)) := by
  unfold convolutionResult
  rw [judge_bind]
  refine .bind (.refl _) fun image checked => ?_
  have image_of := checkImage_judged checked
  cases p.layout.dims? w with
  | none => exact .refl _
  | some dims =>
    dsimp only
    rw [judge_bind]
    refine .bind (.refl _) fun _ _ => ?_
    rw [judge_bind]
    refine .bind (.refl _) fun _ _ => ?_
    have window : Agrees free (windowExtent place image.extent p.kernel p.stride
          (resolve p.padding image.extent p.kernel p.stride))
        (judge place (TensorGraph.windowExtent image.extent p.kernel p.stride
          fun _ => p.margins image.extent)) :=
      windowExtent_agrees place (fun rows columns => resolve_agrees p.padding
        (pixels image image_of) rows columns fun h => fits h image image_of)
        fun h => fits h image image_of
    cases bias with
    | none =>
      show Agrees free _ (judge place (_ >>= _))
      rw [judge_bind]
      exact window.bind fun _ _ => .refl _
    | some b =>
      show Agrees free _ (judge place (_ >>= fun _ => _ >>= _))
      rw [judge_bind]
      refine .bind (.refl _) fun _ _ => ?_
      rw [judge_bind]
      exact window.bind fun _ _ => .refl _

theorem convolutionShape_agrees (place : Place) (p : Convolution α) {shapes : List Shape}
    (pixels : ∀ image ∈ shapes.head?.bind ImageShape.ofShape?,
      p.padding = .same → 0 < image.height ∧ 0 < image.width)
    (fits : free → ∀ image ∈ shapes.head?.bind ImageShape.ofShape?,
      (p.margins image.extent).Measurable image.extent) :
    Agrees free (convolutionShape place p shapes)
      (judge place (TensorGraph.convolutionShape p shapes)) := by
  match shapes with
  | [] => exact .refl _
  | [_] => exact .refl _
  | [x, w] => exact convolutionResult_agrees place p none pixels fits
  | [x, w, b] => exact convolutionResult_agrees place p (some b) pixels fits
  | _ :: _ :: _ :: _ :: _ => exact .refl _

theorem poolingShape_agrees (place : Place) (p : Pooling) {shapes : List Shape}
    (pixels : ∀ image ∈ shapes.head?.bind ImageShape.ofShape?,
      p.padding = .same → 0 < image.height ∧ 0 < image.width)
    (fits : free → ∀ image ∈ shapes.head?.bind ImageShape.ofShape?,
      (p.effectiveMargins image.extent).Measurable image.extent) :
    Agrees free (poolingShape place p shapes)
      (judge place (TensorGraph.poolingShape p shapes)) := by
  match shapes with
  | [] => exact .refl _
  | _ :: _ :: _ => exact .refl _
  | [x] =>
    show Agrees free (judge place (checkImage x) >>= _) (judge place (checkImage x >>= _))
    rw [judge_bind]
    refine .bind (.refl _) fun image checked => ?_
    have image_of := checkImage_judged checked
    rw [judge_bind]
    refine .bind (windowExtent_agrees place (fun rows columns => effectiveMargins_agrees p
      (pixels image image_of) rows columns fun h => fits h image image_of)
      fun h => fits h image image_of) ?_
    exact fun _ _ => .refl _

theorem countFeatures_agrees {shapes : List Shape}
    (fits : free → ∀ x ∈ shapes.head?, Shape.Countable x.tail) :
    Agrees free (countFeatures shapes) (.ok ⟨⟩) := by
  unfold countFeatures
  split
  · exact (count_agrees fun h => fits h _ rfl).map _
  · exact (count_agrees fun h => fits h _ rfl).map _
  · exact .refl _

theorem countReshape_agrees {shape : Shape} {shapes : List Shape}
    (fits : free → shape.Countable ∧ ∀ x ∈ shapes.head?, Shape.Countable x) :
    Agrees free (countReshape shape shapes) (.ok ⟨⟩) := by
  unfold countReshape
  split
  · exact ((count_agrees fun h => (fits h).2 _ rfl).map _).step
      ((count_agrees fun h => (fits h).1).map _)
  · exact .refl _

/-- The check of shapes without zeros has no fault but numbers that are too large. -/
theorem outputShape_agrees [Scalar α] (place : Place) (kind : OperatorKind α)
    {shapes : List Shape} (positive : ∀ s ∈ shapes, 0 ∉ s) :
    Agrees (kind.Measurable shapes) (outputShape place kind shapes)
      (judge place (kind.outputShape shapes)) := by
  have pixels := images_positive positive
  unfold outputShape
  split
  · exact convolutionShape_agrees place _ (fun image h _ => pixels image h) id
  · exact poolingShape_agrees place _ (fun image h _ => pixels image h) id
  · exact (countFeatures_agrees id).step (.refl _)
  · exact (countReshape_agrees id).step (.refl _)
  · exact .refl _

/-! ## Pixels -/

/-- A step that is left out where there is no pixel. -/
def overPixel {π : Type} (pixel : Option π) (s : σ) (step : Guarded σ) : Guarded σ :=
  match pixel with
  | none => .ok s
  | some _ => step

/-- A margin can be taken off a sum that it can be taken off a part of. -/
theorem minus_margin (a : Nat) {margin position pixel : Nat}
    (h : margin ≤ position ∧ position - margin = pixel) :
    minus (a + position) margin = .ok (a + pixel) := by
  rw [minus_ok (by omega)]
  congr 1
  omega

theorem outside_eq (stride before extent o k : Nat) :
    outside before extent (o * stride + k) = .ok (pixel? stride before extent o k).isNone := by
  simp only [outside, pixel?]
  by_cases short : o * stride + k < before
  · rw [if_pos short, if_pos (.inl short)]
    rfl
  · rw [if_neg short, Graph.except_bind_ok (minus_ok (Nat.not_lt.1 short))]
    by_cases far : extent ≤ o * stride + k - before
    · rw [if_pos (.inr far), decide_eq_true far]
      rfl
    · rw [if_neg (by omega), decide_eq_false far]
      rfl

/-- Skipped rows and columns are offsets where there is no pixel. -/
theorem overWindow_agrees {kernel stride : Extent} {margins : Margins} {image : ImageShape}
    {oy ox : Nat} {start : σ} {body : σ → Nat → Nat → Nat → Nat → Guarded σ}
    (rows : free → oy * stride.height + kernel.height ≤ wordLimit)
    (columns : free → ox * stride.width + kernel.width ≤ wordLimit) :
    Agrees free (overWindow kernel stride margins image oy ox start body)
      ((Kernel.windowOffsets kernel).foldlM (fun s place =>
        overPixel (Kernel.windowPixel? stride margins image oy ox place.1 place.2) s
          (body s (oy * stride.height + place.1) (ox * stride.width + place.2) place.1 place.2))
        start) := by
  rw [Kernel.windowOffsets, loop_pairs]
  refine .loop (fun s ky hy => (flat_agrees fun h => ?_).step ?_) start
  · exact Nat.lt_of_lt_of_le (Nat.add_lt_add_left hy _) (rows h)
  rw [Graph.except_bind_ok (outside_eq ..)]
  cases row : pixel? stride.height margins.top image.height oy ky with
  | none =>
    simp only [Option.isNone_none, if_true, Kernel.windowPixel?, row, overPixel]
    exact .of_eq (foldlM_idle _ s).symm
  | some y =>
    refine .loop (fun s kx hx => (flat_agrees fun h => ?_).step ?_) s
    · exact Nat.lt_of_lt_of_le (Nat.add_lt_add_left hx _) (columns h)
    rw [Graph.except_bind_ok (outside_eq ..)]
    cases column : pixel? stride.width margins.left image.width ox kx with
    | none =>
      simp only [Kernel.windowPixel?, row, column, overPixel]
      exact .refl _
    | some x =>
      simp only [Kernel.windowPixel?, row, column, overPixel]
      exact .refl _

end Guarded

section

variable {α : Type} [Scalar α] {image : ImageShape} {kernel stride : Extent}

/-- The convention `same` fits every image that has pixels, unless the image with its margins does
not fit a word. A convolution has `⌈input / stride⌉` windows along each axis, and so has a pooling,
but for a window over padding only that ceil mode may add. The margins are balanced. -/
theorem OperatorKind.outputShape_same (place : Place) (pixels : 0 < image.height ∧ 0 < image.width)
    (some_kernel : 0 < kernel.height ∧ 0 < kernel.width)
    (some_stride : 0 < stride.height ∧ 0 < stride.width) :
    (∀ (layout : FilterLayout) (a : Option (Activation α)) (outputs : Nat) (bias : Option Shape),
      (∀ b ∈ bias, b = [outputs]) →
      Guarded.Agrees ((Padding.same.resolve image.extent kernel stride).Measurable image.extent)
        (Guarded.outputShape place (OperatorKind.convolution ⟨kernel, stride, .same, layout, a⟩)
          (image.toShape :: layout.shape ⟨outputs, image.channels, kernel.height, kernel.width⟩ ::
            bias.toList))
        (.ok [image.batch, outputs, ceilDiv image.height stride.height,
          ceilDiv image.width stride.width])) ∧
    (∀ (mode : PoolMode) (ceilMode : Bool), ∃ rows columns,
      Guarded.Agrees ((Pooling.effectiveMargins ⟨mode, kernel, stride, .same, ceilMode⟩
          image.extent).Measurable image.extent)
        (Guarded.outputShape place
          (OperatorKind.pooling ⟨mode, kernel, stride, .same, ceilMode⟩ : OperatorKind α)
          [image.toShape]) (.ok [image.batch, image.channels, rows, columns]) ∧
      SameWindows ceilMode image.height kernel.height stride.height rows ∧
      SameWindows ceilMode image.width kernel.width stride.width columns) ∧
    Guarded.Agrees ((Padding.same.resolve image.extent kernel stride).Measurable image.extent)
      (Guarded.resolve .same image.extent kernel stride)
      (.ok (Padding.same.resolve image.extent kernel stride)) ∧
    (Padding.same.resolve image.extent kernel stride).Balanced := by
  obtain ⟨convolution, pooling, balanced⟩ :=
    outputShape_sameWindows (α := α) pixels some_kernel some_stride
  refine ⟨fun layout a outputs bias vector => ?_, fun mode ceilMode => ?_,
    Guarded.resolve_agrees .same (fun _ => pixels) some_stride.1 some_stride.2 id, balanced⟩
  · have result := congrArg (Guarded.judge place) (convolution layout a outputs bias vector)
    refine .trans (Guarded.convolutionShape_agrees place ⟨kernel, stride, .same, layout, a⟩
      (fun i (of : some image = some i) _ => Option.some.inj of ▸ pixels)
      fun fits i (of : some image = some i) => Option.some.inj of ▸ fits) (.of_eq result)
  · obtain ⟨rows, columns, result, tall, wide⟩ := pooling mode ceilMode
    refine ⟨rows, columns, ?_, tall, wide⟩
    have result := congrArg (Guarded.judge place) result
    refine .trans (Guarded.poolingShape_agrees place ⟨mode, kernel, stride, .same, ceilMode⟩
      (fun i (of : some image = some i) _ => Option.some.inj of ▸ pixels)
      fun fits i (of : some image = some i) => Option.some.inj of ▸ fits) (.of_eq result)

end

/-- Two windows as tall as that do not fit a word. -/
example : Guarded.outputShape (.operator ⟨0⟩)
    (.pooling ⟨.max, ⟨18446744073709551615, 1⟩, ⟨1, 1⟩, .same, false⟩ : OperatorKind Binary32)
    [[1, 1, 2, 2]] = .error (.fault .overflow) := rfl

/-- Windows of one pixel that skip every other one. In ceil mode there are four of them where there
would be one, as `⌈2 / 2⌉ = 1` along each axis. -/
theorem OperatorKind.sparsePooling_exceeds :
    Guarded.outputShape (.operator ⟨0⟩)
      (.pooling ⟨.max, ⟨1, 1⟩, ⟨2, 2⟩, .same, true⟩ : OperatorKind Binary32) [[1, 1, 2, 2]] =
        .ok [1, 1, 2, 2] ∧ ceilDiv 2 2 = 1 := ⟨rfl, rfl⟩

/-- Windows of three rows two rows apart, and of one column three columns apart, so that in ceil
mode there is one more window in each row. -/
theorem OperatorKind.outputShape_same_farColumns :
    0 < 5 ∧ (0 < 3 ∧ 0 < 1) ∧ (0 < 2 ∧ 0 < 3) ∧
      Guarded.outputShape (.operator ⟨0⟩) (.convolution ⟨⟨3, 1⟩, ⟨2, 3⟩, .same, .oihw, none⟩ :
        OperatorKind Binary32) [[1, 2, 5, 5], [4, 2, 3, 1], [4]] = .ok [1, 4, 3, 2] ∧
      Guarded.outputShape (.operator ⟨0⟩) (.pooling ⟨.max, ⟨3, 1⟩, ⟨2, 3⟩, .same, false⟩ :
        OperatorKind Binary32) [[1, 2, 5, 5]] = .ok [1, 2, 3, 2] ∧
      Guarded.outputShape (.operator ⟨0⟩) (.pooling ⟨.max, ⟨3, 1⟩, ⟨2, 3⟩, .same, true⟩ :
        OperatorKind Binary32) [[1, 2, 5, 5]] = .ok [1, 2, 3, 3] := by
  obtain ⟨convolution, pooling, _⟩ := @outputShape_same Binary32 _ ⟨1, 2, 5, 5⟩ ⟨3, 1⟩ ⟨2, 3⟩
    (.operator ⟨0⟩) (by decide) (by decide) (by decide)
  obtain ⟨rows, columns, floor, tall, wide⟩ := pooling .max false
  obtain ⟨rows', columns', ceil, tall', wide'⟩ := pooling .max true
  cases tall.usual (nomatch ·.1)
  cases wide.usual (nomatch ·.1)
  cases tall'.usual (by decide)
  cases (wide'.extra rfl (by decide)).1
  exact ⟨by decide, by decide, by decide,
    (convolution .oihw none 4 (some [4]) (by simp)).eq (by decide), floor.eq (by decide),
    ceil.eq (by decide)⟩

end TensorGraph
