import TensorGraph.Proofs.Operator.OutputShape
import TensorGraph.Proofs.Tensor.Window

/-!
# TensorGraph.Proofs.Operator.Windows

How many windows convolutions and poolings have.

* `Pooling.rows_eq`, `Pooling.columns_eq`: ceil mode extends each axis by itself.
* `Pooling.RoundedUp`: what ceil mode makes of an axis. `Pooling.roundedUp` says that it does.
* `SameWindows`: what the convention `same` makes of an axis, for convolutions and poolings.
* `outputShape_sameWindows`: there are `⌈input / stride⌉` windows along each axis, except in ceil
  mode where pixels lie behind the last one of them.
-/

namespace TensorGraph

/-- Height and width of an image with margins around it. -/
def Margins.around (m : Margins) (input : Extent) : Extent :=
  ⟨input.height + m.top + m.bottom, input.width + m.left + m.right⟩

/-! ## Ceil mode -/

namespace Pooling

variable (p : Pooling) (input : Extent)

/-- The margins before ceil mode extends them. -/
def margins : Margins := p.padding.resolve input p.kernel p.stride

/-- How far ceil mode extends an axis with its margins, if the pooling is in ceil mode. -/
def extension (padded kernel stride : Nat) : Nat :=
  if p.ceilMode then ceilExtension padded kernel stride else 0

theorem effectiveMargins_eq : p.effectiveMargins input =
    { p.margins input with
      bottom := (p.margins input).bottom +
        p.extension ((p.margins input).around input).height p.kernel.height p.stride.height
      right := (p.margins input).right +
        p.extension ((p.margins input).around input).width p.kernel.width p.stride.width } := by
  unfold effectiveMargins extension
  cases p.ceilMode <;> rfl

theorem rows_eq : ((p.effectiveMargins input).around input).height =
    ((p.margins input).around input).height +
      p.extension ((p.margins input).around input).height p.kernel.height p.stride.height := by
  rw [effectiveMargins_eq]
  exact (Nat.add_assoc _ _ _).symm

theorem columns_eq : ((p.effectiveMargins input).around input).width =
    ((p.margins input).around input).width +
      p.extension ((p.margins input).around input).width p.kernel.width p.stride.width := by
  rw [effectiveMargins_eq]
  exact (Nat.add_assoc _ _ _).symm

/-- An axis that is extended by less than a step, so that rounding the number of windows down gives
what rounding it up gave before, and windows without gaps between them cover all of it. -/
structure RoundedUp (padded kernel stride extension : Nat) : Prop where
  below : extension < stride
  count : windowCount (padded + extension) kernel stride = ceilDiv (padded - kernel) stride + 1
  covered : stride ≤ kernel → ∀ row < padded + extension,
    ∃ o < windowCount (padded + extension) kernel stride,
      o * stride ≤ row ∧ row < o * stride + kernel

theorem roundedUp {padded kernel stride : Nat} (positive : 0 < stride) (fits : kernel ≤ padded) :
    RoundedUp padded kernel stride (ceilExtension padded kernel stride) where
  below := ceilExtension_lt padded kernel positive
  count := by rw [padded_ceilExtension positive fits, windowCount_full _ _ positive]
  covered gapless row inside := by
    rw [padded_ceilExtension positive fits] at inside ⊢
    rw [windowCount_full _ _ positive]
    exact exists_window gapless positive inside

end Pooling

/-! ## The convention `same` -/

section

variable {input kernel stride : Nat}

/-- The two sides of each axis are alike, or the far one is larger by one. -/
def Margins.Balanced (m : Margins) : Prop :=
  (m.bottom = m.top ∨ m.bottom = m.top + 1) ∧ (m.right = m.left ∨ m.right = m.left + 1)

/-- Whether pixels lie behind the last of `⌈input / stride⌉` windows, the first of which starts at
the first pixel. -/
def Overhangs (input kernel stride : Nat) : Prop :=
  (ceilDiv input stride - 1) * stride + kernel < input

instance : Decidable (Overhangs input kernel stride) := inferInstanceAs (Decidable (_ < _))

/-- What the convention `same` makes of an axis. There are `⌈input / stride⌉` windows, but in ceil
mode there is one more if pixels lie behind the last of them. They do not lie under the one more
window either, but in the gap before it: it is over padding only. -/
structure SameWindows (ceilMode : Bool) (input kernel stride count : Nat) : Prop where
  usual : ¬(ceilMode = true ∧ Overhangs input kernel stride) → count = ceilDiv input stride
  extra : ceilMode = true → Overhangs input kernel stride →
    count = ceilDiv input stride + 1 ∧ kernel < stride ∧
      ∀ k, pixel? stride (samePadding input kernel stride).1 input (ceilDiv input stride) k = none

variable (some_pixel : 0 < input) (positive : 0 < stride)

include some_pixel positive

theorem exists_last_window : ∃ n, ceilDiv input stride = n + 1 ∧ n * stride < input ∧
    input ≤ (n + 1) * stride := by
  obtain ⟨n, windows⟩ := Nat.exists_eq_add_of_le' (ceilDiv_pos some_pixel positive)
  exact ⟨n, windows, (ceilDiv_eq_succ_iff positive).1 windows⟩

/-- Without ceil mode there is a window for every step that starts on a pixel. -/
theorem windowCount_same (some_kernel : 0 < kernel) :
    windowCount (max input ((ceilDiv input stride - 1) * stride + kernel)) kernel stride =
      ceilDiv input stride := by
  obtain ⟨n, windows, before, behind⟩ := exists_last_window some_pixel positive
  rw [windows, Nat.add_sub_cancel]
  refine windowCount_eq_succ (Nat.le_max_right _ _) ?_
  rw [Nat.add_one_mul] at behind ⊢
  omega

theorem windowCount_same_extended (some_kernel : 0 < kernel) {padded : Nat}
    (hp : padded = max input ((ceilDiv input stride - 1) * stride + kernel)) :
    SameWindows true input kernel stride
      (windowCount (padded + ceilExtension padded kernel stride) kernel stride) := by
  obtain ⟨n, windows, before, behind⟩ := exists_last_window some_pixel positive
  rw [windows, Nat.add_sub_cancel] at hp
  have fits : kernel ≤ padded := by omega
  have count : windowCount (padded + ceilExtension padded kernel stride) kernel stride =
      ceilDiv (padded - kernel) stride + 1 := (Pooling.roundedUp positive fits).count
  rw [count]
  have overhangs : Overhangs input kernel stride ↔ n * stride + kernel < input := by
    rw [Overhangs, windows, Nat.add_sub_cancel]
  refine ⟨fun usual => ?_, fun _ extra => ?_⟩
  · have ends : padded - kernel = n * stride := by
      have := mt overhangs.2 fun extra => usual ⟨rfl, extra⟩
      omega
    rw [windows, ends, ceilDiv_mul n positive]
  · have past := overhangs.1 extra
    have steps : ceilDiv (padded - kernel) stride = n + 1 := by
      rw [ceilDiv_eq_succ_iff positive]
      omega
    have padding : (samePadding input kernel stride).1 = 0 := by
      have := padded_samePadding input kernel stride
      rw [windows, Nat.add_sub_cancel] at this
      omega
    refine ⟨by rw [steps, windows], by rw [Nat.add_one_mul] at behind; omega, fun k => ?_⟩
    rw [pixel?, windows, padding, if_pos (.inr (by omega))]

/-- What the convention makes of the axis of a pooling. -/
theorem sameWindows (some_kernel : 0 < kernel) (p : Pooling) {padded : Nat}
    (hp : padded = input + (samePadding input kernel stride).1 +
      (samePadding input kernel stride).2) :
    SameWindows p.ceilMode input kernel stride
      (windowCount (padded + p.extension padded kernel stride) kernel stride) := by
  rw [padded_samePadding] at hp
  unfold Pooling.extension
  cases p.ceilMode with
  | false =>
    rw [hp]
    exact ⟨fun _ => windowCount_same some_pixel positive some_kernel, (nomatch ·)⟩
  | true => exact windowCount_same_extended some_pixel positive some_kernel hp

end

/-! ## Shapes -/

section

variable {α : Type} [Scalar α] {image : ImageShape} {kernel stride : Extent}

/-- The result of a pooling with margins that leave room for a window. -/
theorem poolingShape_eq {p : Pooling}
    (some_kernel : 0 < p.kernel.height ∧ 0 < p.kernel.width)
    (some_stride : 0 < p.stride.height ∧ 0 < p.stride.width)
    (fits : p.kernel.height ≤ ((p.margins image.extent).around image.extent).height ∧
      p.kernel.width ≤ ((p.margins image.extent).around image.extent).width) :
    poolingShape p [image.toShape] = .ok [image.batch, image.channels,
      windowCount ((p.effectiveMargins image.extent).around image.extent).height p.kernel.height
        p.stride.height,
      windowCount ((p.effectiveMargins image.extent).around image.extent).width p.kernel.width
        p.stride.width] := by
  have fits : p.kernel.height ≤ ((p.effectiveMargins image.extent).around image.extent).height ∧
      p.kernel.width ≤ ((p.effectiveMargins image.extent).around image.extent).width := by
    rw [p.rows_eq, p.columns_eq]
    exact ⟨Nat.le_add_right_of_le fits.1, Nat.le_add_right_of_le fits.2⟩
  exact poolingShape_ok_iff.2 ⟨image, _, rfl,
    windowExtent_ok_iff.2 ⟨⟨some_kernel, some_stride⟩, fits, rfl⟩, rfl⟩

theorem fits_same (input kernel stride : Nat) :
    kernel ≤ input + (samePadding input kernel stride).1 +
      (samePadding input kernel stride).2 := by
  rw [padded_samePadding]
  omega

/-- The convention `same` fits every image that has pixels. A convolution has `⌈input / stride⌉`
windows along each axis, and so has a pooling, but for a window over padding only that ceil mode may
add. The margins are balanced. -/
theorem outputShape_sameWindows (pixels : 0 < image.height ∧ 0 < image.width)
    (some_kernel : 0 < kernel.height ∧ 0 < kernel.width)
    (some_stride : 0 < stride.height ∧ 0 < stride.width) :
    (∀ (layout : FilterLayout) (a : Option (Activation α)) (outputs : Nat) (bias : Option Shape),
      (∀ b ∈ bias, b = [outputs]) →
      (OperatorKind.convolution ⟨kernel, stride, .same, layout, a⟩).outputShape
          (image.toShape :: layout.shape ⟨outputs, image.channels, kernel.height, kernel.width⟩ ::
            bias.toList) =
        .ok [image.batch, outputs, ceilDiv image.height stride.height,
          ceilDiv image.width stride.width]) ∧
    (∀ (mode : PoolMode) (ceilMode : Bool), ∃ rows columns,
      (OperatorKind.pooling ⟨mode, kernel, stride, .same, ceilMode⟩ : OperatorKind α).outputShape
          [image.toShape] = .ok [image.batch, image.channels, rows, columns] ∧
      SameWindows ceilMode image.height kernel.height stride.height rows ∧
      SameWindows ceilMode image.width kernel.width stride.width columns) ∧
    (Padding.same.resolve image.extent kernel stride).Balanced := by
  have tall := fits_same image.height kernel.height stride.height
  have wide := fits_same image.width kernel.width stride.width
  refine ⟨fun layout a outputs bias vector => ?_, fun mode ceilMode => ?_,
    samePadding_sides _ _ _, samePadding_sides _ _ _⟩
  · refine convolutionShape_ok_iff.2 ⟨_, _, bias, rfl, convolutionResult_ok_iff.2 ⟨image, _, _, rfl,
      rfl, vector, rfl, rfl, windowExtent_ok_iff.2 ⟨⟨some_kernel, some_stride⟩, ⟨tall, wide⟩, rfl⟩,
      ?_⟩⟩
    have rows := windowCount_same pixels.1 some_stride.1 some_kernel.1
    have columns := windowCount_same pixels.2 some_stride.2 some_kernel.2
    rw [← padded_samePadding] at rows columns
    rw [← rows, ← columns]
    rfl
  · let p : Pooling := ⟨mode, kernel, stride, .same, ceilMode⟩
    refine ⟨_, _, poolingShape_eq (p := p) some_kernel some_stride ⟨tall, wide⟩, ?_, ?_⟩
    · rw [p.rows_eq]
      exact sameWindows pixels.1 some_stride.1 some_kernel.1 p rfl
    · rw [p.columns_eq]
      exact sameWindows pixels.2 some_stride.2 some_kernel.2 p rfl

end

end TensorGraph
