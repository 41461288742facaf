import Mathlib.Algebra.GroupWithZero.Nat
import Mathlib.Data.List.GetD
import TensorGraph.Proofs.Shader.Entry
import TensorGraph.Proofs.Shader.Literals

/-!
# TensorGraph.Proofs.Shader.Range

Which numbers the text of a kernel spells, and which of them fit a word of the device.

* `OperatorKind.windowNumbers`: the parameters of a window, which no shape bounds.
* `KernelSpec.shapeNumbers`: the numbers of a body that come from shapes.
* `KernelSpec.mem_literals_body`: the literals of a body are those two kinds of numbers.
* `KernelSpec.Addressable`: what the device can count.
* `KernelSpec.Addressable.fits`: then a literal fits a word, or is the place of an operand or a
  parameter of a window.
* `KernelSpec.spelled`: all of these places and parameters are spelled out.
-/

namespace TensorGraph

open Text Shader

/-! ## Shapes -/

namespace Shape

/-- A tensor with elements, all of which a word of 32 bits can count. -/
structure Addressable (s : Shape) : Prop where
  positive : 0 ∉ s
  bounded : s.size < 2 ^ 32

variable {s : Shape}

/-- An axis and those behind it. -/
theorem getD_mul_inner_le (positive : 0 ∉ s) (axis : Nat) :
    s.getD axis 0 * s.inner axis ≤ s.size := by
  by_cases inside : axis < s.length
  · refine Nat.le_trans (Nat.le_of_eq ?_) (size_drop_le positive axis)
    rw [List.drop_eq_getElem_cons inside, size_cons, inner, List.getD_eq_getElem _ _ inside]
  · rw [List.getD_eq_default _ _ (Nat.le_of_not_lt inside), Nat.zero_mul]
    exact Nat.zero_le _

theorem getD_le (positive : 0 ∉ s) (axis : Nat) : s.getD axis 0 ≤ s.size :=
  Nat.le_trans (Nat.le_mul_of_pos_right _ (Kernel.inner_pos positive axis))
    (getD_mul_inner_le positive axis)

theorem inner_le (positive : 0 ∉ s) (axis : Nat) : s.inner axis ≤ s.size :=
  size_drop_le positive (axis + 1)

/-- What an image kernel counts in a tensor of this shape. -/
theorem image_le (positive : 0 ∉ s) :
    let image := KernelSpec.imageOf s
    image.width * image.height * image.channels ≤ s.size ∧
      image.width * image.height ≤ s.size ∧ image.channels ≤ s.size ∧
      image.height ≤ s.size ∧ image.width ≤ s.size := by
  unfold KernelSpec.imageOf
  cases shape : ImageShape.ofShape? s with
  | none => simp
  | some image =>
    cases ofShape?_eq_some.1 shape
    obtain ⟨batch, channels, height, width⟩ := image
    have planes : channels * (height * (width * 1)) ≤ _ := size_drop_le positive 1
    have plane : height * (width * 1) ≤ _ := size_drop_le positive 2
    rw [Nat.mul_one, Nat.mul_comm height] at planes plane
    refine ⟨?_, plane, getD_le positive 1, getD_le positive 2, getD_le positive 3⟩
    rw [Nat.mul_comm]
    exact planes

end Shape

namespace OperatorKind

/-- The numbers of a window on an image of extent `input`: kernel, stride, and the margins in front
of the image. -/
def windowNumbers {α : Type} (input : Extent) : OperatorKind α → List Nat
  | .convolution p => numbers p.kernel p.stride (p.margins input)
  | .pooling p => numbers p.kernel p.stride (p.padding.resolve input p.kernel p.stride)
  | _ => []
where
  numbers (kernel stride : Extent) (margins : Margins) : List Nat :=
    [kernel.height, kernel.width, stride.height, stride.width, margins.top, margins.left]

end OperatorKind

namespace KernelSpec

variable (s : KernelSpec Binary32)

/-! ## The parts of a body -/

@[simp] theorem literals_startName (k : Nat) : literals (startName k) = [] := by
  have text : (startName k).toList = 'p' :: Nat.toDigits 10 k := by simp [startName]
  refine literals_name ?_ (by rw [text]; rfl)
  rw [text, List.all_cons, Bool.and_eq_true, List.all_eq_true]
  exact ⟨rfl, fun c hc => isWordChar_of_isDigit (DecimalText.isDigit_of_mem_toDigits c hc)⟩

@[simp] theorem literals_read (k : Nat) (i : Index) :
    literals (s.read k i).text = literals i.text := by
  rw [read, Term.literals_read, Index.literals_add, Index.literals_named (literals_startName k)]
  rfl

@[simp] theorem literals_bias {i : Index} (plain : literals i.text = []) :
    literals (s.bias i).text = [] := by
  rw [bias]
  split
  · rw [literals_read, plain]
  · exact Term.literals_zero

@[simp] theorem literals_activated (a : Option (Activation Binary32)) {value : Term Binary32}
    (plain : literals value.text = []) : literals (activated a value).text = [] := by
  unfold activated
  extract_lets v
  have grouped : literals v.text = [] := by
    unfold v
    split
    · exact plain
    · rw [Term.literals_grouped, plain]
  clear_value v
  cases a with
  | none => exact grouped
  | some a => cases a <;> simp [grouped]

variable {s}

theorem literals_axisLoop {offset window position : String} (named : literals offset = [] ∧
    literals window = [] ∧ literals position = []) (kernel stride before extent level : Nat)
    (body : List (Statement Binary32)) : literals (Statement.lines level
      (axisLoop offset window position kernel stride before extent body)) =
      [0, kernel, 1, stride, before, before, extent] ++
        literals (Statement.bodyLines (level + 1) body) := by
  obtain ⟨offset, window, position⟩ := named
  simp [axisLoop, offset, window, position]

@[simp] theorem literals_windowLoop (kernel stride : Extent) (margins : Margins)
    (image : ImageShape) (level : Nat) (body : List (Statement Binary32)) :
    literals (Statement.lines level (windowLoop kernel stride margins image body)) =
      [0, kernel.height, 1, stride.height, margins.top, margins.top, image.height,
        0, kernel.width, 1, stride.width, margins.left, margins.left, image.width] ++
        literals (Statement.bodyLines (level + 2) body) := by
  rw [windowLoop, literals_axisLoop (by decide), Statement.literals_bodyLines_cons,
    literals_axisLoop (by decide)]
  simp

/-! ## The numbers of a body -/

/-- The numbers that the position in the output and the index of a pixel are computed with. -/
def imageNumbers (output image : ImageShape) : List Nat :=
  [output.width, output.height, output.width * output.height, image.height, image.width]

/-- The numbers that index a tensor along an axis. -/
def axisNumbers (shape : Shape) (axis : Nat) : List Nat :=
  [shape.getD axis 0, shape.inner axis]

/-- The numbers of a body that come from shapes, among them those that a loop counts with. -/
def shapeNumbers (s : KernelSpec Binary32) : List Nat :=
  let x := (s.operand 0).shape
  let image := imageOf x
  let output := imageOf s.output
  match s.kind with
  | .linear _ => [0, 1, s.output.getD 1 0, (s.operand 1).shape.getD 1 0]
  | .softmax axis => [0, 1, x.getD axis 0 * x.inner axis] ++ axisNumbers x axis
  | .batchNormalization _ => axisNumbers x 1
  | .axiswiseAffine axis _ => axisNumbers x axis
  | .pooling _ => [0, 1] ++ imageNumbers output image
  | .convolution _ =>
    [0, 1, image.channels, output.channels, output.width * output.height * output.channels] ++
      imageNumbers output image
  | _ => []

theorem mem_literals_linearBody {a : Option (Activation Binary32)} {n : Nat} :
    n ∈ literals (Statement.bodyLines 1 (s.linearBody a)) ↔
      n ∈ [0, 1, s.output.getD 1 0, (s.operand 1).shape.getD 1 0] := by
  let outputs := s.output.getD 1 0
  let features := (s.operand 1).shape.getD 1 0
  have listed : literals (Statement.bodyLines 1 (s.linearBody a)) =
      [outputs, outputs, 0, features, 1, features, features] := by
    simp +decide [linearBody, invocation, accumulate, emit, outputAt, outputs, features]
  grind

theorem mem_literals_softmaxBody {axis n : Nat} :
    let x := (s.operand 0).shape
    n ∈ literals (Statement.bodyLines 1 (s.softmaxBody axis)) ↔
      n ∈ [0, 1, x.getD axis 0 * x.inner axis] ++ axisNumbers x axis := by
  let extent := (s.operand 0).shape.getD axis 0
  let inner := (s.operand 0).shape.inner axis
  have listed : literals (Statement.bodyLines 1 (s.softmaxBody axis)) =
      [inner, extent * inner, inner, 0, extent, 1, inner, 0, extent, 1, inner, inner,
        0, extent, 1, inner, inner] := by
    simp +decide [softmaxBody, invocation, outputAt, extent, inner]
  rw [listed]
  show _ ↔ n ∈ [0, 1, extent * inner] ++ [extent, inner]
  simp only [List.mem_cons, List.mem_append, List.not_mem_nil, or_false]
  grind

theorem mem_literals_coordinate {axis n : Nat} :
    n ∈ literals (s.coordinate axis).text ↔ n ∈ axisNumbers (s.operand 0).shape axis := by
  simp +decide [coordinate, invocation, axisNumbers, or_comm]

theorem mem_literals_poolingBody {p : Pooling} {n : Nat} :
    n ∈ literals (Statement.bodyLines 1 (s.poolingBody p)) ↔
      n ∈ [0, 1] ++ imageNumbers (imageOf s.output) (imageOf (s.operand 0).shape) ∨
      n ∈ OperatorKind.windowNumbers ⟨0, 0⟩ (.pooling p : OperatorKind Binary32) := by
  let image := imageOf (s.operand 0).shape
  let output := imageOf s.output
  let margins := p.padding.resolve ⟨0, 0⟩ p.kernel p.stride
  have listed : literals (Statement.bodyLines 1 (s.poolingBody p)) =
      [output.width, output.width, output.height, output.width * output.height,
        0, p.kernel.height, 1, p.stride.height, margins.top, margins.top, image.height,
        0, p.kernel.width, 1, p.stride.width, margins.left, margins.left, image.width,
        image.height, margins.top, image.width, margins.left] := by
    cases mode : p.mode <;> simp +decide [poolingBody, mode, pixelIndex, outputPosition,
      invocation, accumulate, emit, outputAt, output, image, margins]
  rw [listed]
  simp only [OperatorKind.windowNumbers, OperatorKind.windowNumbers.numbers, imageNumbers,
    List.mem_cons, List.mem_append, List.not_mem_nil, or_false]
  grind

theorem mem_literals_filterIndex {layout : FilterLayout} {channels n : Nat} {kernel : Extent} :
    n ∈ literals (filterIndex layout channels kernel).text ↔
      n ∈ [channels, kernel.height, kernel.width] := by
  cases layout with
  | oihw => simp +decide [filterIndex]
  | ohwi =>
    have listed : literals (filterIndex .ohwi channels kernel).text =
        [kernel.height, kernel.width, channels] := by simp +decide [filterIndex]
    grind

theorem mem_literals_convolutionBody {p : Convolution Binary32} {n : Nat} :
    let image := imageOf (s.operand 0).shape
    let output := imageOf s.output
    n ∈ literals (Statement.bodyLines 1 (s.convolutionBody p)) ↔
      n ∈ [0, 1, image.channels, output.channels,
        output.width * output.height * output.channels] ++ imageNumbers output image ∨
      n ∈ OperatorKind.windowNumbers ⟨0, 0⟩ (.convolution p) := by
  intro image output
  let margins := p.margins ⟨0, 0⟩
  have listed : literals (Statement.bodyLines 1 (s.convolutionBody p)) =
      [output.width, output.width, output.height, output.width * output.height, output.channels,
        output.width * output.height * output.channels, 0, image.channels, 1,
        0, p.kernel.height, 1, p.stride.height, margins.top, margins.top, image.height,
        0, p.kernel.width, 1, p.stride.width, margins.left, margins.left, image.width,
        image.channels, image.height, margins.top, image.width, margins.left] ++
      literals (filterIndex p.layout image.channels p.kernel).text := by
    simp +decide [convolutionBody, pixelIndex, outputPosition, invocation, accumulate, emit,
      outputAt, output, image, margins]
  rw [listed, List.mem_append, mem_literals_filterIndex]
  simp only [OperatorKind.windowNumbers, OperatorKind.windowNumbers.numbers, imageNumbers,
    List.mem_cons, List.mem_append, List.not_mem_nil, or_false]
  grind

theorem literals_accumulates {i : Index} (plain : literals i.text = []) (ks : List Nat) :
    literals (Statement.bodyLines 1 (ks.map fun k => accumulate (s.read (k + 1) i))) = [] := by
  induction ks with
  | nil => rfl
  | cons k rest ih =>
    rw [List.map_cons, Statement.literals_bodyLines_cons, ih, List.append_nil]
    simp +decide [accumulate, plain]

/-- The literals of a body are its shape numbers and those of its window. -/
theorem mem_literals_body {n : Nat} : n ∈ literals (Statement.bodyLines 1 s.body) ↔
    n ∈ s.shapeNumbers ∨ n ∈ s.kind.windowNumbers ⟨0, 0⟩ := by
  unfold body shapeNumbers
  cases kind : s.kind with
  | convolution p => exact mem_literals_convolutionBody
  | pooling p => exact mem_literals_poolingBody
  | linear a => exact mem_literals_linearBody.trans (or_iff_left List.not_mem_nil).symm
  | softmax axis => exact mem_literals_softmaxBody.trans (or_iff_left List.not_mem_nil).symm
  | batchNormalization | axiswiseAffine =>
    simp +decide [emit, outputAt, invocation, OperatorKind.windowNumbers, mem_literals_coordinate]
  | elementwiseAdd a =>
    simp +decide [emit, outputAt, invocation, OperatorKind.windowNumbers, literals_accumulates]
  | activation | responseNormalization | reshape | scalarAffine =>
    simp +decide [emit, outputAt, invocation, OperatorKind.windowNumbers]

/-! ## Numbers that fit a word -/

/-- What the device can count: the elements of every operand and of the output, the invocations, and
those of a workgroup. -/
structure Addressable (s : KernelSpec Binary32) : Prop where
  inputs : ∀ x ∈ s.inputs, x.shape.Addressable
  output : s.output.Addressable
  invocations : s.invocations < 2 ^ 32
  workgroupSize : s.workgroupSize < 2 ^ 32

theorem Addressable.operand (h : s.Addressable) (k : Nat) : (s.operand k).shape.Addressable := by
  rw [KernelSpec.operand]
  by_cases there : k < s.inputs.length
  · rw [List.getD_eq_getElem _ _ there]
    exact h.inputs _ (List.getElem_mem there)
  · rw [List.getD_eq_default _ _ (Nat.le_of_not_lt there)]
    exact ⟨by decide, by decide⟩

theorem axisNumbers_lt {shape : Shape} (h : shape.Addressable) (axis : Nat) :
    ∀ n ∈ axisNumbers shape axis, n < 2 ^ 32 := by
  have extent := Shape.getD_le h.positive axis
  have inner := Shape.inner_le h.positive axis
  have elements := h.bounded
  rw [axisNumbers, List.forall_mem_cons, List.forall_mem_singleton]
  omega

theorem imageNumbers_lt {output image : Shape} (outside : output.Addressable)
    (inside : image.Addressable) :
    ∀ n ∈ imageNumbers (imageOf output) (imageOf image), n < 2 ^ 32 := by
  have ends := Shape.image_le outside.positive
  have sides := Shape.image_le inside.positive
  have results := outside.bounded
  have elements := inside.bounded
  simp only [imageNumbers, List.forall_mem_cons, List.not_mem_nil, false_implies, implies_true,
    and_true]
  omega

/-- Shapes bound all that comes from them. -/
theorem Addressable.shapeNumbers_lt (h : s.Addressable) : ∀ n ∈ s.shapeNumbers, n < 2 ^ 32 := by
  have few : ∀ n ∈ [0, 1], n < 2 ^ 32 := by decide
  have x := h.operand 0
  have image := imageNumbers_lt h.output x
  unfold shapeNumbers
  cases s.kind with
  | linear a =>
    have outputs := Shape.getD_le h.output.positive 1
    have features := Shape.getD_le (h.operand 1).positive 1
    have results := h.output.bounded
    have weights := (h.operand 1).bounded
    simp only [List.forall_mem_cons, List.not_mem_nil, false_implies, implies_true, and_true]
    omega
  | softmax axis =>
    have row := Nat.lt_of_le_of_lt (Shape.getD_mul_inner_le x.positive axis) x.bounded
    refine List.forall_mem_append.2 ⟨?_, axisNumbers_lt x axis⟩
    simp only [List.forall_mem_cons, List.not_mem_nil, false_implies, implies_true, and_true]
    omega
  | batchNormalization eps => exact axisNumbers_lt x 1
  | axiswiseAffine axis a => exact axisNumbers_lt x axis
  | pooling p => exact List.forall_mem_append.2 ⟨few, image⟩
  | convolution p =>
    have sides := Shape.image_le x.positive
    have ends := Shape.image_le h.output.positive
    have elements := x.bounded
    have results := h.output.bounded
    refine List.forall_mem_append.2 ⟨?_, image⟩
    simp only [List.forall_mem_cons, List.not_mem_nil, false_implies, implies_true, and_true]
    omega
  | activation | responseNormalization | reshape | elementwiseAdd | scalarAffine =>
    exact fun n hn => absurd hn List.not_mem_nil

/-! ## The text of a kernel -/

theorem literals_parameters (count : Nat) :
    literals (Statement.bodyLines 1 ((List.range count).map fun k =>
      (.parameter (startName k) k : Statement Binary32))) = List.range count := by
  induction List.range count with
  | nil => rfl
  | cons k rest ih => simp [ih]

theorem literals_preamble : literals (Statement.bodyLines 1 s.preamble) =
    [s.workgroupSize, s.invocations] ++ List.range s.inputs.length ++ [s.inputs.length] := by
  simp +decide [preamble, invocation, literals_parameters]

theorem literals_header {name : String} (plain : literals name = []) :
    literals (s.header name) = [] := by
  have size : literals ("@compute @workgroup_size(" ++ s.workgroupSize.repr ++ ")\n") = [] :=
    literals_append_nil (.inr (by decide))
      (literals_append_nil (.inl (by decide)) (by decide) (literals_repr _)) (by decide)
  have named : literals ("@compute @workgroup_size(" ++ s.workgroupSize.repr ++ ")\n" ++ "fn " ++
      name) = [] :=
    literals_append_nil (.inl (closes_append (by decide)))
      (literals_append_nil (.inl (closes_append (by decide))) size (by decide)) plain
  exact literals_append_nil (.inr (by decide))
    (literals_append_nil (.inr (by decide)) named (by decide)) (by decide)

theorem literals_source {name : String} (plain : literals name = []) :
    literals (s.source name) = literals (Statement.bodyLines 1 s.preamble) ++
      literals (Statement.bodyLines 1 s.body) := by
  have closes : Closes (s.header name) := closes_append (by decide)
  have brace : literals "\x7d\n" = [] := by decide
  calc literals (s.source name)
    _ = literals (s.header name ++ Statement.bodyLines 1 s.code ++ "\x7d\n") := by
      rw [source_eq]
    _ = literals (s.header name ++ Statement.bodyLines 1 s.code) := by
      rw [literals_opening (by decide), brace, List.append_nil]
    _ = literals (Statement.bodyLines 1 (s.preamble ++ s.body)) := by
      rw [literals_closing closes, literals_header plain, List.nil_append, code]
    _ = _ := Statement.literals_bodyLines_append _ _

/-- A literal of a kernel fits a word, or is the place of an operand or a number of the window. -/
theorem Addressable.fits (h : s.Addressable) {name : String} (plain : literals name = []) :
    ∀ n ∈ literals (s.source name),
      n < 2 ^ 32 ∨ n ≤ s.inputs.length ∨ n ∈ s.kind.windowNumbers ⟨0, 0⟩ := by
  intro n hn
  rw [literals_source plain, literals_preamble, List.mem_append, mem_literals_body] at hn
  rcases hn with start | shape | window
  · simp only [List.mem_append, List.mem_cons, List.not_mem_nil, or_false, List.mem_range] at start
    have := h.invocations
    have := h.workgroupSize
    omega
  · exact .inl (h.shapeNumbers_lt n shape)
  · exact .inr (.inr window)

theorem spelled {name : String} (plain : literals name = []) {n : Nat}
    (h : n ≤ s.inputs.length ∨ n ∈ s.kind.windowNumbers ⟨0, 0⟩) :
    n ∈ literals (s.source name) := by
  rw [literals_source plain, literals_preamble, List.mem_append, mem_literals_body]
  rcases h with place | window
  · left
    simp only [List.mem_append, List.mem_singleton, List.mem_range]
    omega
  · exact .inr (.inr window)

end KernelSpec

end TensorGraph
