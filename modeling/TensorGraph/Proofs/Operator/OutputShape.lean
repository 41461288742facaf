import TensorGraph.Operator.OutputShape
import TensorGraph.Proofs.Graph.Validation

/-!
# TensorGraph.Proofs.Operator.OutputShape

What operands that pass a shape rule look like.

* `unaryShape_ok_iff` and the other lemmas that end in `_ok_iff`: the operand shapes that a rule
  accepts, and the result that it gives them.
* `outputShape_withActivation`: a stored activation does not change the shape of a result.
-/

namespace TensorGraph

open TensorGraph.Graph (except_bind_ok_iff except_ok_bind)

variable {α : Type}

theorem require_bind_ok_iff {β : Type} {c : Bool} {flaw : ShapeFlaw}
    {k : Unit → ShapeCheck β} {y : β} :
    (ShapeCheck.require c flaw >>= k) = .ok y ↔ c = true ∧ k ⟨⟩ = .ok y := by
  cases c
  · exact ⟨(nomatch ·), (nomatch ·.1)⟩
  · exact ⟨fun h => ⟨rfl, h⟩, And.right⟩

theorem pure_ok_iff {β : Type} {x y : β} : (pure x : ShapeCheck β) = .ok y ↔ y = x :=
  ⟨fun h => (Except.ok.inj h).symm, fun h => h ▸ rfl⟩

theorem checkVector_bind_ok_iff {β : Type} {what : String} {length : Nat} {given : Shape}
    {k : Unit → ShapeCheck β} {y : β} :
    (checkVector what length given >>= k) = .ok y ↔ given = [length] ∧ k ⟨⟩ = .ok y := by
  rw [checkVector, require_bind_ok_iff, beq_iff_eq]

theorem checkImage_ok_iff {shape : Shape} {image : ImageShape} :
    checkImage shape = .ok image ↔ ImageShape.ofShape? shape = some image := by
  unfold checkImage
  cases ImageShape.ofShape? shape <;> simp

theorem ofShape?_eq_some {shape : Shape} {image : ImageShape} :
    ImageShape.ofShape? shape = some image ↔ shape = image.toShape := by
  constructor
  · intro h
    unfold ImageShape.ofShape? at h
    split at h
    · cases h
      rfl
    · cases h
  · rintro rfl
    rfl

/-- Windows lie on an image if its axes with their margins hold a whole one each. -/
theorem windowExtent_ok_iff {input kernel stride out : Extent} {margins : Unit → Margins} :
    windowExtent input kernel stride margins = .ok out ↔
      ((0 < kernel.height ∧ 0 < kernel.width) ∧ 0 < stride.height ∧ 0 < stride.width) ∧
      (kernel.height ≤ input.height + (margins ⟨⟩).top + (margins ⟨⟩).bottom ∧
        kernel.width ≤ input.width + (margins ⟨⟩).left + (margins ⟨⟩).right) ∧
      out = ⟨windowCount (input.height + (margins ⟨⟩).top + (margins ⟨⟩).bottom) kernel.height
          stride.height,
        windowCount (input.width + (margins ⟨⟩).left + (margins ⟨⟩).right) kernel.width
          stride.width⟩ := by
  have positive : (kernel.height ≠ 0 && kernel.width ≠ 0 && stride.height ≠ 0 &&
      stride.width ≠ 0) = true ↔
      ((0 < kernel.height ∧ 0 < kernel.width) ∧ 0 < stride.height ∧ 0 < stride.width) := by
    simp only [Bool.and_eq_true, decide_eq_true_eq, Nat.pos_iff_ne_zero, and_assoc]
  rw [windowExtent, require_bind_ok_iff, positive]
  refine and_congr_right fun _ => ?_
  dsimp only [checkWindows?]
  split
  · next height width rows columns =>
    obtain ⟨tall, rows⟩ := Option.ite_none_left_eq_some.1 rows
    obtain ⟨wide, columns⟩ := Option.ite_none_left_eq_some.1 columns
    cases rows
    cases columns
    rw [and_iff_right ⟨Nat.not_lt.1 tall, Nat.not_lt.1 wide⟩]
    exact pure_ok_iff
  · next short =>
    refine ⟨(nomatch ·), fun ⟨⟨tall, wide⟩, _⟩ => ?_⟩
    exact (short _ _ (if_neg (Nat.not_lt.2 tall)) (if_neg (Nat.not_lt.2 wide))).elim

theorem unaryShape_ok_iff {shapes : List Shape} {rule : Shape → ShapeCheck Shape} {s : Shape} :
    unaryShape shapes rule = .ok s ↔ ∃ x, shapes = [x] ∧ rule x = .ok s := by
  unfold unaryShape
  split
  · next x => simp
  · next many =>
    refine ⟨(nomatch ·), ?_⟩
    rintro ⟨x, rfl, _⟩
    exact absurd rfl (many x)

theorem elementwiseAddShape_ok_iff {shapes : List Shape} {s : Shape} :
    elementwiseAddShape shapes = .ok s ↔ 2 ≤ shapes.length ∧ ∀ t ∈ shapes, t = s := by
  unfold elementwiseAddShape
  split
  · next x y rest =>
    cases found : (y :: rest).find? (· != x) with
    | some other =>
      have differs : (other != x) = true := List.find?_some (p := (· != x)) found
      have mem := List.mem_of_find?_eq_some found
      refine ⟨(nomatch ·), fun ⟨_, all⟩ => ?_⟩
      have same : other = x := (all other (List.mem_cons_of_mem x mem)).trans
        (all x List.mem_cons_self).symm
      simp [same] at differs
    | none =>
      rw [List.find?_eq_none] at found
      constructor
      · intro h
        cases h
        refine ⟨by simp, fun t ht => ?_⟩
        rcases List.mem_cons.1 ht with rfl | ht
        · rfl
        · simpa using found t ht
      · rintro ⟨_, all⟩
        exact congrArg Except.ok (all x List.mem_cons_self)
  · next short =>
    refine ⟨(nomatch ·), fun ⟨length, _⟩ => ?_⟩
    match shapes, short, length with
    | [], _, length => simp at length
    | [_], _, length => simp at length
    | x :: y :: rest, short, _ => exact absurd rfl (short x y rest)

theorem axiswiseAffineShape_ok_iff {axis : Nat} {shapes : List Shape} {s : Shape} :
    axiswiseAffineShape axis shapes = .ok s ↔
      ∃ dim, s[axis]? = some dim ∧ shapes = [s, [dim], [dim]] := by
  unfold axiswiseAffineShape
  split
  · next x scale bias =>
    cases hx : x[axis]? with
    | none =>
      refine ⟨(nomatch ·), ?_⟩
      rintro ⟨dim, hs, e⟩
      cases e
      rw [hx] at hs
      cases hs
    | some dim =>
      show (checkVector "scale" dim scale >>= fun _ => checkVector "bias" dim bias >>= fun _ =>
        .ok x) = .ok s ↔ _
      rw [checkVector_bind_ok_iff, checkVector_bind_ok_iff]
      constructor
      · rintro ⟨rfl, rfl, e⟩
        cases e
        exact ⟨dim, hx, rfl⟩
      · rintro ⟨dim', hs, e⟩
        cases e
        rw [hx] at hs
        cases hs
        exact ⟨rfl, rfl, rfl⟩
  · next many =>
    refine ⟨(nomatch ·), ?_⟩
    rintro ⟨dim, _, rfl⟩
    exact absurd rfl (many s [dim] [dim])

theorem batchNormalizationShape_ok_iff [Scalar α] {eps : α} {shapes : List Shape} {s : Shape} :
    batchNormalizationShape eps shapes = .ok s ↔ Scalar.nonnegative eps = true ∧
      ∃ channels, s[1]? = some channels ∧
        shapes = [s, [channels], [channels], [channels], [channels]] := by
  unfold batchNormalizationShape
  split
  · next x gamma beta mean variance =>
    split
    · next batch channels rest =>
      rw [require_bind_ok_iff, checkVector_bind_ok_iff, checkVector_bind_ok_iff,
        checkVector_bind_ok_iff, checkVector_bind_ok_iff]
      constructor
      · rintro ⟨positive, rfl, rfl, rfl, rfl, e⟩
        cases e
        exact ⟨positive, channels, rfl, rfl⟩
      · rintro ⟨positive, channels', hs, e⟩
        cases e
        cases hs
        exact ⟨positive, rfl, rfl, rfl, rfl, rfl⟩
    · next short =>
      refine ⟨(nomatch ·), ?_⟩
      rintro ⟨_, channels, hs, e⟩
      cases e
      match s, hs, short with
      | b :: c :: rest, _, short => exact absurd rfl (short b c rest)
  · next many =>
    refine ⟨(nomatch ·), ?_⟩
    rintro ⟨_, channels, _, rfl⟩
    exact absurd rfl (many s [channels] [channels] [channels] [channels])

/-- The rule of a convolution for an image, a filter and a bias if there is one. -/
def convolutionResult (p : Convolution α) (x w : Shape) (bias : Option Shape) :
    ShapeCheck Shape := do
  let image ← checkImage x
  match p.layout.dims? w with
  | none => throw (.filterRank w)
  | some dims =>
    ShapeCheck.require (dims.inputs == image.channels)
      (.filterChannels dims.inputs x image.channels)
    ShapeCheck.require (⟨dims.height, dims.width⟩ == p.kernel)
      (.filterExtent ⟨dims.height, dims.width⟩ p.kernel)
    match bias with
    | some b => checkVector "bias" dims.outputs b
    | none => pure ()
    let out ← windowExtent image.extent p.kernel p.stride fun _ => p.margins image.extent
    return [image.batch, dims.outputs, out.height, out.width]

theorem dims?_eq_some {layout : FilterLayout} {w : Shape} {dims : FilterDims} :
    layout.dims? w = some dims ↔ w = layout.shape dims := by
  constructor
  · intro h
    unfold FilterLayout.dims? at h
    split at h
    · cases h
      rfl
    · cases h
      rfl
    · cases h
  · rintro rfl
    exact FilterLayout.dims?_shape layout dims

theorem convolutionResult_ok_iff {p : Convolution α} {x w : Shape} {bias : Option Shape}
    {s : Shape} : convolutionResult p x w bias = .ok s ↔
      ∃ (image : ImageShape) (dims : FilterDims) (out : Extent),
        x = image.toShape ∧ w = p.layout.shape dims ∧ (∀ b ∈ bias, b = [dims.outputs]) ∧
        dims.inputs = image.channels ∧ (⟨dims.height, dims.width⟩ : Extent) = p.kernel ∧
        windowExtent image.extent p.kernel p.stride (fun _ => p.margins image.extent) = .ok out ∧
        s = [image.batch, dims.outputs, out.height, out.width] := by
  unfold convolutionResult
  simp only [except_bind_ok_iff, checkImage_ok_iff, ofShape?_eq_some]
  refine exists_congr fun image => ?_
  cases hw : p.layout.dims? w with
  | none =>
    refine ⟨(nomatch ·.2), ?_⟩
    rintro ⟨dims, out, _, rfl, _⟩
    rw [FilterLayout.dims?_shape] at hw
    cases hw
  | some dims =>
    obtain rfl := dims?_eq_some.1 hw
    have dims_inj (d : FilterDims) (e : p.layout.shape dims = p.layout.shape d) : d = dims := by
      have := FilterLayout.dims?_shape p.layout dims
      rw [e, FilterLayout.dims?_shape] at this
      exact Option.some.inj this
    cases bias with
    | none =>
      simp only [require_bind_ok_iff, beq_iff_eq]
      simp only [except_bind_ok_iff, pure_ok_iff]
      constructor
      · rintro ⟨hx, inputs, kernel, out, window, hs⟩
        exact ⟨dims, out, hx, rfl, (fun _ hb => nomatch hb), inputs, kernel, window, hs⟩
      · rintro ⟨d, out, hx, e, _, inputs, kernel, window, hs⟩
        cases dims_inj d e
        exact ⟨hx, inputs, kernel, out, window, hs⟩
    | some b =>
      simp only [require_bind_ok_iff, checkVector_bind_ok_iff, beq_iff_eq]
      simp only [except_bind_ok_iff, pure_ok_iff]
      constructor
      · rintro ⟨hx, inputs, kernel, vector, out, window, hs⟩
        exact ⟨dims, out, hx, rfl, fun b' hb => by cases hb; exact vector, inputs, kernel, window,
          hs⟩
      · rintro ⟨d, out, hx, e, vector, inputs, kernel, window, hs⟩
        cases dims_inj d e
        exact ⟨hx, inputs, kernel, vector b rfl, out, window, hs⟩

/-- The operands of a convolution or a linear operator, with a bias or without. -/
theorem convolutionShape_ok_iff {p : Convolution α} {shapes : List Shape} {s : Shape} :
    convolutionShape p shapes = .ok s ↔ ∃ x w bias,
      shapes = x :: w :: bias.toList ∧ convolutionResult p x w bias = .ok s := by
  constructor
  · intro h
    match shapes with
    | [x, w] => exact ⟨x, w, none, rfl, h⟩
    | [x, w, b] => exact ⟨x, w, some b, rfl, h⟩
    | [] | [_] | _ :: _ :: _ :: _ :: _ => cases h
  · rintro ⟨x, w, bias, rfl, h⟩
    cases bias <;> exact h

/-- The rule of a linear operator for its input, its weights and a bias if there is one. -/
def linearResult (x w : Shape) (bias : Option Shape) : ShapeCheck Shape := do
  match x with
  | batch :: first :: rest =>
    let features := Shape.size (first :: rest)
    match w with
    | [outputs, width] =>
      ShapeCheck.require (width == features) (.linearFeatures w features x)
      match bias with
      | some b => checkVector "bias" outputs b
      | none => pure ()
      return [batch, outputs]
    | _ => throw (.linearFeatures w features x)
  | _ => throw (.linearRank x)

theorem linearResult_ok_iff {x w : Shape} {bias : Option Shape} {s : Shape} :
    linearResult x w bias = .ok s ↔ ∃ batch features outputs,
      x = batch :: features ∧ features ≠ [] ∧ w = [outputs, Shape.size features] ∧
      (∀ b ∈ bias, b = [outputs]) ∧ s = [batch, outputs] := by
  constructor
  · intro h
    match x, w with
    | batch :: first :: rest, [outputs, width] =>
      obtain ⟨width_eq, h⟩ := require_bind_ok_iff.1 h
      have width_eq : width = Shape.size (first :: rest) := by simpa using width_eq
      cases bias with
      | none =>
        cases h
        exact ⟨batch, first :: rest, outputs, rfl, (nomatch ·), by rw [width_eq],
          (fun _ hb => nomatch hb), rfl⟩
      | some b =>
        obtain ⟨vector, h⟩ := checkVector_bind_ok_iff.1 h
        cases h
        exact ⟨batch, first :: rest, outputs, rfl, (nomatch ·), by rw [width_eq],
          fun b' hb => by cases hb; exact vector, rfl⟩
    | [], _ | [_], _ | _ :: _ :: _, [] | _ :: _ :: _, [_] | _ :: _ :: _, _ :: _ :: _ :: _ => cases h
  · rintro ⟨batch, features, outputs, rfl, some_features, rfl, vector, rfl⟩
    obtain ⟨first, rest, rfl⟩ := List.exists_cons_of_ne_nil some_features
    refine require_bind_ok_iff.2 ⟨by simp, ?_⟩
    cases bias with
    | none => rfl
    | some b => exact checkVector_bind_ok_iff.2 ⟨vector b rfl, rfl⟩

theorem linearShape_ok_iff {shapes : List Shape} {s : Shape} :
    linearShape shapes = .ok s ↔ ∃ x w bias,
      shapes = x :: w :: bias.toList ∧ linearResult x w bias = .ok s := by
  constructor
  · intro h
    match shapes with
    | [x, w] => exact ⟨x, w, none, rfl, h⟩
    | [x, w, b] => exact ⟨x, w, some b, rfl, h⟩
    | [] | [_] | _ :: _ :: _ :: _ :: _ => cases h
  · rintro ⟨x, w, bias, rfl, h⟩
    cases bias <;> exact h

theorem poolingShape_ok_iff {p : Pooling} {shapes : List Shape} {s : Shape} :
    poolingShape p shapes = .ok s ↔ ∃ (image : ImageShape) (out : Extent),
      shapes = [image.toShape] ∧
      windowExtent image.extent p.kernel p.stride
        (fun _ => p.effectiveMargins image.extent) = .ok out ∧
      s = [image.batch, image.channels, out.height, out.width] := by
  unfold poolingShape
  split
  · next x =>
    simp only [except_bind_ok_iff, checkImage_ok_iff, ofShape?_eq_some, pure_ok_iff]
    constructor
    · rintro ⟨image, rfl, out, window, hs⟩
      exact ⟨image, out, rfl, window, hs⟩
    · rintro ⟨image, out, e, window, hs⟩
      exact ⟨image, (List.cons.inj e).1, out, window, hs⟩
  · next many =>
    refine ⟨(nomatch ·), ?_⟩
    rintro ⟨image, _, rfl, _⟩
    exact absurd rfl (many image.toShape)

theorem outputShape_withActivation [Scalar α] (a : Activation α) (kind : OperatorKind α)
    (shapes : List Shape) :
    (kind.withActivation a).outputShape shapes = kind.outputShape shapes := by
  cases kind <;> rfl

end TensorGraph
