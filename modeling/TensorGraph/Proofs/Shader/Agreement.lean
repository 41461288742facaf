import TensorGraph.Proofs.Evaluation.Operator
import TensorGraph.Proofs.Graph.Reachable
import TensorGraph.Proofs.Shader.Entry

/-!
# TensorGraph.Proofs.Shader.Agreement

Kernels follow the recipes of the evaluator.

* `Recipe.code`: the straight code that follows a recipe.
* the lemmas that end in `_unrolled`: what is left of a body for the index of a position.
* `KernelSpec.follows_evaluator`: so kernels and the evaluator combine the same elements.
-/

namespace TensorGraph

open Shader Kernel

/-! ## Code for recipes -/

open KernelSpec (accumulate poolingStep)

/-- The straight code that follows a recipe for index `i`. -/
def Recipe.code {α : Type} [Scalar α] (s : KernelSpec α) (params : Nat → Nat) (i : Nat) :
    Recipe α → List (Statement α)
  | .activated a =>
    [.number "x" (s.element params 0 i),
      .store (s.place params i) (KernelSpec.activated (some a) (.named "x"))]
  | .copied => [.store (s.place params i) (s.element params 0 i)]
  | .scaled scale bias =>
    [.store (s.place params i) (s.element params 0 i * .constant scale + .constant bias)]
  | .summed a =>
    .accumulator "acc" (s.element params 0 i) ::
      ((List.range (s.inputs.length - 1)).map fun k => accumulate (s.element params (k + 1) i)) ++
      [.store (s.place params i) (KernelSpec.activated a (.named "acc"))]
  | .affine a c =>
    [.store (s.place params i) (KernelSpec.activated a
      (s.element params 0 i * s.element params 1 c + s.element params 2 c))]
  | .normalized eps c =>
    [.store (s.place params i) ((s.element params 0 i - s.element params 3 c) /
      .sqrt (s.element params 4 c + .constant eps) * s.element params 1 c + s.element params 2 c)]
  | .products a start factors =>
    .accumulator "acc" (start.elim .zero (s.element params 2)) ::
      (factors.map fun (m, n) => accumulate (s.element params 0 m * s.element params 1 n)) ++
      [.store (s.place params i) (KernelSpec.activated a (.named "acc"))]
  | .pooled p pixels =>
    [.accumulator "best" .least, .accumulator "acc" .zero] ++
      (pixels.flatMap fun e => poolingStep (s.element params 0 e)) ++
      [.store (s.place params i) (KernelSpec.pooled p)]
  | .row elements =>
    .accumulator "m" .least ::
      (elements.map fun e => .assign "m" (.max (.named "m") (s.element params 0 e))) ++
      .accumulator "denom" .zero ::
      (elements.flatMap fun e => [.number "e" (.exp (s.element params 0 e - .named "m")),
        .store (s.place params e) (.named "e"),
        .assign "denom" (.named "denom" + .named "e")]) ++
      elements.map fun e =>
        .store (s.place params e) (.read .data (s.place params e) / .named "denom")

/-! ## Bodies -/

namespace KernelSpec

section

variable {α : Type} {s : KernelSpec α} {params : Nat → Nat} {i : Nat} {σ : Scope}

/-- A sum starts at its bias, if there is one. -/
theorem Entered.bias (h : s.Entered params i σ) {bias : Option Shape}
    (count : s.inputs.length = 2 + bias.toList.length) {idx : Index} {o : Nat}
    (ho : idx.value? σ = some o) : (s.bias idx).located? σ =
      some ((bias.map fun _ => o).elim .zero (s.element params 2)) := by
  unfold KernelSpec.bias
  cases bias with
  | none =>
    rw [if_neg (by rw [count]; decide)]
    rfl
  | some b =>
    have third : 2 < s.inputs.length := by simp [count]
    rw [if_pos third, h.read third ho]
    rfl

theorem value?_pixelIndex (margins : Margins) (image : ImageShape) {plane : Index} {q y x : Nat}
    (hq : plane.value? σ = some q) (row : σ "iy" = some (y + margins.top))
    (column : σ "ix" = some (x + margins.left)) :
    (pixelIndex plane margins image).value? σ =
      some ((q * image.height + y) * image.width + x) := by
  have rows : (plane * .literal image.height + .named "iy" - .literal margins.top).value? σ =
      some (q * image.height + y) :=
    Index.value?_sub (Index.value?_add (Index.value?_mul hq Index.value?_literal)
      (Index.value?_named row)) Index.value?_literal (Nat.add_assoc ..).symm
  exact Index.value?_sub (Index.value?_add (Index.value?_mul rows Index.value?_literal)
    (Index.value?_named column)) Index.value?_literal (Nat.add_assoc ..).symm

theorem value?_filterIndex {layout : FilterLayout} {dims : FilterDims} {channels : Nat}
    {kernel : Extent} (inputs : dims.inputs = channels)
    (extent : (⟨dims.height, dims.width⟩ : Extent) = kernel) {o c ky kx : Nat}
    (ho : σ "oc" = some o) (hc : σ "c" = some c) (hky : σ "ky" = some ky)
    (hkx : σ "kx" = some kx) :
    (filterIndex layout channels kernel).value? σ = some (layout.offset dims o c ky kx) := by
  subst inputs extent
  cases layout with
  | oihw =>
    exact Index.value?_add (Index.value?_mul (Index.value?_add (Index.value?_mul
      (Index.value?_add (Index.value?_mul ho Index.value?_literal) hc) Index.value?_literal) hky)
      Index.value?_literal) hkx
  | ohwi =>
    exact Index.value?_add (Index.value?_mul (Index.value?_add (Index.value?_mul
      (Index.value?_add (Index.value?_mul ho Index.value?_literal) hky) Index.value?_literal) hkx)
      Index.value?_literal) hc

theorem plane_div {plane height width y x : Nat} (hy : y < height) (hx : x < width) :
    ((plane * height + y) * width + x) / (width * height) = plane := by
  rw [← Nat.div_div_eq_div_mul, index_div hx, index_div hy]

/-- The first statements of a body with windows bind the column and the row of the index. What is
left of it counts the planes before. -/
theorem Entered.position (output : ImageShape) {plane oy ox : Nat}
    (h : s.Entered params ((plane * output.height + oy) * output.width + ox) σ)
    (hy : oy < output.height) (hx : ox < output.width) :
    (∀ rest : List (Statement α), unroll params σ (outputPosition output ++ rest) =
      unroll params ((σ.bind "ox" ox).bind "oy" oy) rest) ∧
    s.Entered params ((plane * output.height + oy) * output.width + ox)
      ((σ.bind "ox" ox).bind "oy" oy) := by
  have column : (KernelSpec.invocation % .literal output.width).value? σ = some ox := by
    rw [Index.value?_mod h.invocation Index.value?_literal (by omega), index_mod hx]
  have inside := h.bind "ox" (by decide) ox
  have row : (KernelSpec.invocation / .literal output.width % .literal output.height).value?
      (σ.bind "ox" ox) = some oy := by
    rw [Index.value?_mod (Index.value?_div inside.invocation Index.value?_literal (by omega))
      Index.value?_literal (by omega), index_div hx, index_mod hy]
  refine ⟨fun rest => ?_, inside.bind "oy" (by decide) oy⟩
  rw [outputPosition, List.cons_append, List.cons_append, List.nil_append, unroll_index column,
    unroll_index row]

theorem Entered.plane {height width plane oy ox : Nat}
    (h : s.Entered params ((plane * height + oy) * width + ox) σ) (hy : oy < height)
    (hx : ox < width) :
    (KernelSpec.invocation / .literal (width * height)).value? σ = some plane := by
  rw [Index.value?_div h.invocation Index.value?_literal (Nat.mul_pos (by omega) (by omega)),
    plane_div hy hx]

/-- The products of a convolution, loop by loop. -/
theorem convolutionReads_flatMap {β : Type} (p : Convolution α) (image : ImageShape)
    (dims : FilterDims) (b o oy ox : Nat) (step : Nat × Nat → β) :
    (convolutionReads p image dims b o oy ox).map step =
      (List.range image.channels).flatMap fun c => (windowOffsets p.kernel).flatMap
        fun (ky, kx) => (windowPixel? p.stride (p.margins image.extent) image oy ox ky kx).elim []
          fun (y, x) => [step (flatIndex image.channels image.height image.width (b, c, y, x),
            p.layout.offset dims o c ky kx)] := by
  unfold convolutionReads taps
  rw [List.map_filterMap, List.filterMap_eq_flatMap_toList]
  simp only [windowOffsets, List.flatMap_assoc, List.flatMap_map]
  refine congrArg (List.flatMap · _) (funext fun c => congrArg (List.flatMap · _) (funext fun ky =>
    congrArg (List.flatMap · _) (funext fun kx => ?_)))
  cases windowPixel? p.stride (p.margins image.extent) image oy ox ky kx <;> rfl

/-- The scope under the loops of a window is that of a body, and has the pixel behind the
margins. -/
theorem Entered.under (h : s.Entered params i σ) (stride : Extent) (oy ox ky kx : Nat) :
    s.Entered params i (σ.under stride oy ox ky kx) :=
  (((h.bind _ (by decide) _).bind _ (by decide) _).bind _ (by decide) _).bind _ (by decide) _

theorem pixel?_position {stride before extent o k y : Nat}
    (h : pixel? stride before extent o k = some y) : o * stride + k = y + before := by
  have := pixel?_eq_some h
  omega

theorem Entered.convolutionLoop {p : Convolution α} {image : ImageShape} {dims : FilterDims}
    {b o oy ox : Nat} (h : s.Entered params i σ) (two : 2 ≤ s.inputs.length)
    (channels : dims.inputs = image.channels)
    (kernel : (⟨dims.height, dims.width⟩ : Extent) = p.kernel) (batch : σ "n" = some b)
    (channel : σ "oc" = some o) (row : σ "oy" = some oy) (column : σ "ox" = some ox)
    (rest : List (Statement α)) :
    unroll params σ (.loop "c" image.channels [windowLoop p.kernel p.stride
      (p.margins image.extent) image [accumulate (s.read 0 (pixelIndex
        (.named "n" * .literal image.channels + .named "c") (p.margins image.extent) image) *
          s.read 1 (filterIndex p.layout image.channels p.kernel))]] :: rest) =
      (unroll params σ rest).map (Unrolled.prepend
        ((convolutionReads p image dims b o oy ox).map fun (m, n) =>
          accumulate (s.element params 0 m * s.element params 1 n))) := by
  rw [convolutionReads_flatMap]
  refine unroll_loop _ fun c _ => ⟨.finished, by decide, ?_⟩
  have inside : ∀ ky kx y x,
      pixel? p.stride.height (p.margins image.extent).top image.height oy ky = some y →
      pixel? p.stride.width (p.margins image.extent).left image.width ox kx = some x →
      unroll params ((σ.bind "c" c).under p.stride oy ox ky kx) [accumulate (s.read 0 (pixelIndex
        (.named "n" * .literal image.channels + .named "c") (p.margins image.extent) image) *
          s.read 1 (filterIndex p.layout image.channels p.kernel))] =
        some ([accumulate (s.element params 0
          (flatIndex image.channels image.height image.width (b, c, y, x)) *
            s.element params 1 (p.layout.offset dims o c ky kx))], .finished) := by
    intro ky kx y x hy hx
    have entered := (h.bind "c" (by decide) c).under p.stride oy ox ky kx
    have plane : (.named "n" * .literal image.channels + .named "c" : Index).value?
        ((σ.bind "c" c).under p.stride oy ox ky kx) = some (b * image.channels + c) := by
      refine Index.value?_add (Index.value?_mul (Index.value?_named ?_) Index.value?_literal)
        (Index.value?_named ?_)
      · rw [Scope.under_of_notMem (by decide), Scope.bind_of_ne _ (by decide), batch]
      · rw [Scope.under_of_notMem (by decide), Scope.bind_self]
    have pixel := value?_pixelIndex (p.margins image.extent) image plane (y := y) (x := x)
      (by rw [Scope.under_iy, pixel?_position hy]) (by rw [Scope.under_ix, pixel?_position hx])
    have filter : (filterIndex p.layout image.channels p.kernel).value?
        ((σ.bind "c" c).under p.stride oy ox ky kx) = some (p.layout.offset dims o c ky kx) := by
      refine value?_filterIndex channels kernel ?_ ?_ Scope.under_ky Scope.under_kx
      · rw [Scope.under_of_notMem (by decide), Scope.bind_of_ne _ (by decide), channel]
      · rw [Scope.under_of_notMem (by decide), Scope.bind_self]
    rw [unroll_accumulate (by
      rw [Term.located?_mul, entered.read (by omega) pixel, entered.read (by omega) filter]
      rfl), unroll]
    rfl
  rw [unroll_windowLoop (by simp [Scope.bind, row]) (by simp [Scope.bind, column]) _ inside, unroll]
  simp [Unrolled.prepend]

/-- The pixels of a pooling, loop by loop. -/
theorem poolingReads_flatMap {β : Type} (p : Pooling) (image : ImageShape) (plane oy ox : Nat)
    (steps : Nat → List β) : (poolingReads p image plane oy ox).flatMap steps =
      (windowOffsets p.kernel).flatMap fun (ky, kx) =>
        (windowPixel? p.stride (p.effectiveMargins image.extent) image oy ox ky kx).elim []
          fun (y, x) => steps ((plane * image.height + y) * image.width + x) := by
  unfold poolingReads
  rw [List.filterMap_eq_flatMap_toList, List.flatMap_assoc]
  refine congrArg (List.flatMap · _) (funext fun (ky, kx) => ?_)
  dsimp only
  cases windowPixel? p.stride (p.effectiveMargins image.extent) image oy ox ky kx <;> simp

theorem Entered.poolingLoop (p : Pooling) (image : ImageShape) {q oy ox : Nat}
    (h : s.Entered params i σ) (one : 1 ≤ s.inputs.length) (plane : σ "plane" = some q)
    (row : σ "oy" = some oy) (column : σ "ox" = some ox) :
    unroll params σ [windowLoop p.kernel p.stride (p.effectiveMargins image.extent) image
      (poolingStep (s.read 0
        (pixelIndex (.named "plane") (p.effectiveMargins image.extent) image)))] =
      some ((poolingReads p image q oy ox).flatMap fun e => poolingStep (s.element params 0 e),
        .finished) := by
  rw [poolingReads_flatMap]
  have inside : ∀ ky kx y x,
      pixel? p.stride.height (p.effectiveMargins image.extent).top image.height oy ky = some y →
      pixel? p.stride.width (p.effectiveMargins image.extent).left image.width ox kx = some x →
      unroll params (σ.under p.stride oy ox ky kx) (poolingStep (s.read 0
        (pixelIndex (.named "plane") (p.effectiveMargins image.extent) image))) =
        some (poolingStep (s.element params 0 ((q * image.height + y) * image.width + x)),
          .finished) := by
    intro ky kx y x hy hx
    have plane : σ.under p.stride oy ox ky kx "plane" = some q := by
      rw [Scope.under_of_notMem (by decide), plane]
    have pixel := (h.under p.stride oy ox ky kx).read (k := 0) (by omega)
      (value?_pixelIndex (p.effectiveMargins image.extent) image (y := y) (x := x)
        (Index.value?_named plane) (by rw [Scope.under_iy, pixel?_position hy])
        (by rw [Scope.under_ix, pixel?_position hx]))
    rw [poolingStep, unroll_number pixel, unroll_assign rfl, unroll_accumulate rfl, unroll]
    rfl
  rw [unroll_windowLoop row column _ inside, unroll]
  simp [Unrolled.prepend]

/-- Operands added one after the other. -/
theorem Entered.accumulates (h : s.Entered params i σ) (ks : List Nat)
    (there : ∀ k ∈ ks, k + 1 < s.inputs.length) (rest : List (Statement α)) :
    unroll params σ ((ks.map fun k => accumulate (s.read (k + 1) KernelSpec.invocation)) ++ rest) =
      (unroll params σ rest).map (Unrolled.prepend
        (ks.map fun k => accumulate (s.element params (k + 1) i))) := by
  induction ks with
  | nil => exact (map_prepend_nil _).symm
  | cons k ks ih =>
    obtain ⟨first, others⟩ := List.forall_mem_cons.1 there
    rw [List.map_cons, List.cons_append, unroll_accumulate (h.read first h.invocation), ih others]
    cases unroll params σ rest <;> rfl

/-- The coordinate of an element along an axis. -/
theorem Entered.coordinate {x : Shape} {axis outer dim o c r : Nat}
    (h : s.Entered params ((o * dim + c) * x.inner axis + r) σ) (shape : (s.operand 0).shape = x)
    (split : x.Axis axis outer dim) (hc : c < dim) (hr : r < x.inner axis) :
    (s.coordinate axis).value? σ = some c := by
  unfold KernelSpec.coordinate
  simp only [shape, split.getD]
  rw [Index.value?_mod (Index.value?_div h.invocation Index.value?_literal (by omega))
    Index.value?_literal (by omega), index_div hr, index_mod hc]

/-- Where the row of a softmax starts. -/
theorem Entered.row {inner o r : Nat} (h : s.Entered params (o * inner + r) σ) (hr : r < inner)
    (dim : Nat) : (KernelSpec.invocation / .literal inner * .literal (dim * inner) +
      KernelSpec.invocation % .literal inner).value? σ = some (o * (dim * inner) + r) := by
  have block := Index.value?_div h.invocation (Index.value?_literal (n := inner)) (by omega)
  have place := Index.value?_mod h.invocation (Index.value?_literal (n := inner)) (by omega)
  rw [index_div hr] at block
  rw [index_mod hr] at place
  exact Index.value?_add (Index.value?_mul block Index.value?_literal) place

theorem value?_rowElement {dim inner o r : Nat} (row : σ "row" = some (o * (dim * inner) + r))
    (d : Nat) : (.named "row" + .named "d" * .literal inner : Index).value? (σ.bind "d" d) =
      some ((o * dim + d) * inner + r) := by
  have sum : (o * dim + d) * inner + r = o * (dim * inner) + r + d * inner := by
    rw [Nat.add_mul, Nat.mul_assoc, Nat.add_right_comm]
  rw [sum]
  exact Index.value?_add (Index.value?_named (by rw [Scope.bind_of_ne _ (by decide), row]))
    (Index.value?_mul (Index.value?_named (Scope.bind_self ..)) Index.value?_literal)

/-- A loop over the elements of a row. -/
theorem unroll_rowLoop (inner o r : Nat) {dim : Nat} {body rest : List (Statement α)}
    (code : Nat → List (Statement α))
    (turn : ∀ d, unroll params (σ.bind "d" d) body =
      some (code ((o * dim + d) * inner + r), .finished)) :
    unroll params σ (.loop "d" dim body :: rest) =
      (unroll params σ rest).map (Unrolled.prepend ((rowReads dim inner o r).flatMap code)) := by
  rw [rowReads, List.flatMap_map]
  exact unroll_loop _ fun d _ => ⟨.finished, by decide, turn d⟩

variable [Scalar α]

/-- A sum of products, whose loop has the recipe's factors. -/
theorem Entered.products (h : s.Entered params i σ) {a : Option (Activation α)}
    {start : Option Nat} {factors : List (Nat × Nat)} {x : Term α} {loop : Statement α}
    (first : x.located? σ = some (start.elim .zero (s.element params 2)))
    (each : unroll params σ [loop, KernelSpec.emit (activated a (.named "acc"))] =
      (unroll params σ [KernelSpec.emit (activated a (.named "acc"))]).map (Unrolled.prepend
        (factors.map fun (m, n) => accumulate (s.element params 0 m * s.element params 1 n)))) :
    unroll params σ [.accumulator "acc" x, loop, KernelSpec.emit (activated a (.named "acc"))] =
      some ((Recipe.products a start factors).code s params i, .finished) := by
  rw [unroll_accumulator first, each, h.emit (located?_activated_named a "acc")]
  rfl

theorem linear_unrolled {a : Option (Activation α)} {batch features outputs b o : Nat}
    {rest : Shape} {bias : Option Shape}
    (plans : s.Plans (.linear a) ((batch :: rest) :: [outputs, features] :: bias.toList)
      [batch, outputs])
    (entered : s.Entered params (b * outputs + o) σ) (ho : o < outputs) :
    unroll params σ (s.linearBody a) = some ((Recipe.products a (bias.map fun _ => o)
      ((List.range features).map fun k => (b * features + k, o * features + k))).code s params
        (b * outputs + o), .finished) := by
  have count : s.inputs.length = 2 + bias.toList.length := by
    rw [plans.count, List.length_cons, List.length_cons]
    omega
  have columns : (s.operand 1).shape.getD 1 0 = features := by
    rw [plans.operand]
    rfl
  have width : s.output.getD 1 0 = outputs := by
    rw [plans.output]
    rfl
  have row : (invocation / .literal outputs).value? σ = some b := by
    rw [Index.value?_div entered.invocation Index.value?_literal (by omega), index_div ho]
  have entered := entered.bind "n" (by decide) b
  have column : (invocation % .literal outputs).value? (σ.bind "n" b) = some o := by
    rw [Index.value?_mod entered.invocation Index.value?_literal (by omega), index_mod ho]
  have entered := entered.bind "oc" (by decide) o
  unfold linearBody
  simp only [columns, width]
  rw [unroll_index row, unroll_index column]
  refine entered.products (entered.bias count (Scope.bind_self ..)) ?_
  rw [List.map_map, List.map_eq_flatMap]
  refine unroll_loop _ fun k hk => ⟨.finished, by decide, ?_⟩
  have entered := entered.bind "k" (by decide) k
  have row : (((σ.bind "n" b).bind "oc" o).bind "k" k) "n" = some b := by simp [Scope.bind]
  have column : (((σ.bind "n" b).bind "oc" o).bind "k" k) "oc" = some o := by simp [Scope.bind]
  have feature := Scope.bind_self ((σ.bind "n" b).bind "oc" o) "k" k
  have x := entered.read (k := 0) (by omega) (Index.value?_add (Index.value?_mul
    (Index.value?_named row) (Index.value?_literal (n := features))) (Index.value?_named feature))
  have w := entered.read (k := 1) (by omega) (Index.value?_add (Index.value?_mul
    (Index.value?_named column) (Index.value?_literal (n := features)))
    (Index.value?_named feature))
  rw [unroll_accumulate (by rw [Term.located?_mul, x, w]; rfl), unroll]
  rfl

theorem convolution_unrolled {p : Convolution α} {image : ImageShape} {dims : FilterDims}
    {bias : Option Shape} {height width b o oy ox : Nat}
    (plans : s.Plans (.convolution p) (image.toShape :: p.layout.shape dims :: bias.toList)
      [image.batch, dims.outputs, height, width])
    (channels : dims.inputs = image.channels)
    (kernel : (⟨dims.height, dims.width⟩ : Extent) = p.kernel) (ho : o < dims.outputs)
    (hy : oy < height) (hx : ox < width)
    (entered : s.Entered params (flatIndex dims.outputs height width (b, o, oy, ox)) σ) :
    unroll params σ (s.convolutionBody (p.withExplicitMargins image.extent)) =
      some ((Recipe.products p.activation (bias.map fun _ => o)
        (convolutionReads p image dims b o oy ox)).code s params
          (flatIndex dims.outputs height width (b, o, oy, ox)), .finished) := by
  have count : s.inputs.length = 2 + bias.toList.length := by
    rw [plans.count, List.length_cons, List.length_cons]
    omega
  have input : imageOf (s.operand 0).shape = image := by
    rw [plans.operand]
    rfl
  have result : imageOf s.output = ⟨image.batch, dims.outputs, height, width⟩ := by
    rw [plans.output]
    rfl
  have entered : s.Entered params (((b * dims.outputs + o) * height + oy) * width + ox) σ := entered
  obtain ⟨position, entered⟩ :=
    entered.position ⟨image.batch, dims.outputs, height, width⟩ hy hx
  have channel : (invocation / .literal (width * height) % .literal dims.outputs).value?
      ((σ.bind "ox" ox).bind "oy" oy) = some o := by
    rw [Index.value?_mod (entered.plane hy hx) Index.value?_literal (by omega), index_mod ho]
  have entered := entered.bind "oc" (by decide) o
  have batch : (invocation / .literal (width * height * dims.outputs)).value?
      (((σ.bind "ox" ox).bind "oy" oy).bind "oc" o) = some b := by
    rw [Index.value?_div entered.invocation Index.value?_literal
      (Nat.mul_pos (Nat.mul_pos (by omega) (by omega)) (by omega)), ← Nat.div_div_eq_div_mul,
      plane_div hy hx, index_div ho]
  have entered := entered.bind "n" (by decide) b
  unfold convolutionBody
  simp only [input, result]
  rw [position, unroll_index channel, unroll_index batch]
  refine entered.products (entered.bias count (Index.value?_named (by simp [Scope.bind]))) ?_
  exact entered.convolutionLoop (by omega) channels kernel (by simp [Scope.bind])
    (by simp [Scope.bind]) (by simp [Scope.bind]) (by simp [Scope.bind]) _

theorem poolingBody_explicit (p : Pooling) (extent : Extent) :
    s.poolingBody (p.withExplicitMargins extent) = outputPosition (imageOf s.output) ++
      [.index "plane" (invocation /
          .literal ((imageOf s.output).width * (imageOf s.output).height)),
        .accumulator "best" .least,
        .accumulator "acc" .zero,
        .block [windowLoop p.kernel p.stride (p.effectiveMargins extent)
          (imageOf (s.operand 0).shape) (poolingStep (s.read 0 (pixelIndex (.named "plane")
            (p.effectiveMargins extent) (imageOf (s.operand 0).shape))))],
        KernelSpec.emit (pooled p)] := rfl

theorem pooling_unrolled {p : Pooling} {image : ImageShape} {height width plane oy ox : Nat}
    (plans : s.Plans (.pooling p) [image.toShape] [image.batch, image.channels, height, width])
    (hy : oy < height) (hx : ox < width)
    (entered : s.Entered params ((plane * height + oy) * width + ox) σ) :
    unroll params σ (s.poolingBody (p.withExplicitMargins image.extent)) =
      some ((Recipe.pooled p (poolingReads p image plane oy ox)).code s params
        ((plane * height + oy) * width + ox), .finished) := by
  have count : s.inputs.length = 1 := plans.count
  have input : imageOf (s.operand 0).shape = image := by
    rw [plans.operand]
    rfl
  have result : imageOf s.output = ⟨image.batch, image.channels, height, width⟩ := by
    rw [plans.output]
    rfl
  obtain ⟨position, entered⟩ :=
    entered.position ⟨image.batch, image.channels, height, width⟩ hy hx
  have place := entered.plane hy hx
  have entered := entered.bind "plane" (by decide) plane
  have row : (((σ.bind "ox" ox).bind "oy" oy).bind "plane" plane) "oy" = some oy := by
    simp [Scope.bind]
  have column : (((σ.bind "ox" ox).bind "oy" oy).bind "plane" plane) "ox" = some ox := by
    simp [Scope.bind]
  have pixels := entered.poolingLoop p image (by omega) (Scope.bind_self ..) row column
  rw [poolingBody_explicit, input, result, position, unroll_index place,
    unroll_accumulator rfl, unroll_accumulator rfl, unroll_block pixels,
    entered.emit (located?_pooled p)]
  rfl

theorem softmax_unrolled {axis outer dim o r : Nat} {x : Shape}
    (plans : s.Plans (.softmax axis) [x] x) (split : x.Axis axis outer dim)
    (hr : r < x.inner axis) (entered : s.Entered params (o * x.inner axis + r) σ) :
    unroll params σ (s.softmaxBody axis) =
      some ((Recipe.row (rowReads dim (x.inner axis) o r)).code s params (o * x.inner axis + r),
        .finished) := by
  have input : (s.operand 0).shape = x := by
    rw [plans.operand]
    rfl
  have first : 0 < s.inputs.length := by
    rw [plans.count]
    exact Nat.one_pos
  have row := entered.row hr dim
  have entered := entered.bind "row" (by decide) (o * (dim * x.inner axis) + r)
  have element := value?_rowElement (Scope.bind_self σ "row" (o * (dim * x.inner axis) + r))
  have inside (d : Nat) := entered.bind "d" (by decide) d
  have value (d : Nat) := (inside d).read first (element d)
  have target (d : Nat) := (inside d).outputAt (element d)
  unfold softmaxBody
  simp only [input, split.getD]
  rw [unroll_index row, unroll_accumulator rfl,
    unroll_rowLoop (x.inner axis) o r (fun e => [.assign "m" (.max (.named "m")
      (s.element params 0 e))]) fun d => ?_,
    unroll_accumulator rfl,
    unroll_rowLoop (x.inner axis) o r (fun e => [.number "e"
      (.exp (s.element params 0 e - .named "m")), .store (s.place params e) (.named "e"),
      .assign "denom" (.named "denom" + .named "e")]) fun d => ?_,
    unroll_rowLoop (x.inner axis) o r (fun e => [.store (s.place params e)
      (.read .data (s.place params e) / .named "denom")]) fun d => ?_, unroll]
  · simp [Recipe.code, List.map_eq_flatMap, Unrolled.prepend]
  · rw [unroll_store (target d) ?_, unroll]
    · rfl
    · rw [Term.located?_div, Term.located?, Index.written?_zero (target d)]
      rfl
  · rw [unroll_number (by rw [Term.located?_exp, Term.located?_sub, value]; rfl),
      unroll_store (target d) rfl, unroll_assign rfl, unroll]
    rfl
  · rw [unroll_assign (by rw [Term.located?_max, value]; rfl), unroll]
    rfl

theorem body_unrolled {kind : OperatorKind α} {shapes : List Shape} {out : Shape}
    {recipe : Recipe α} (h : kind.Makes shapes out i recipe) (plans : s.Plans kind shapes out)
    (entered : s.Entered params i σ) :
    unroll params σ s.body = some (recipe.code s params i, .finished) := by
  unfold KernelSpec.body
  rw [plans.kind_eq]
  have count := plans.count
  cases h with
  | convolution channels kernel hb ho hy hx =>
    exact convolution_unrolled plans channels kernel ho hy hx entered
  | linear hb ho => exact linear_unrolled plans entered ho
  | pooling hp hy hx => exact pooling_unrolled plans hy hx entered
  | softmax split ho hr => exact softmax_unrolled plans split hr entered
  | @axiswiseAffine axis a x outer dim o c r split ho hc hr =>
    have count : s.inputs.length = 3 := plans.count
    have channel := entered.coordinate (plans.operand 0) split hc hr
    have inside := entered.bind "c" (by decide) c
    have value := inside.read (k := 0) (by omega) inside.invocation
    have at_channel : (Index.named "c").value? (σ.bind "c" c) = some c := Scope.bind_self ..
    have scale := inside.read (k := 1) (by omega) at_channel
    have bias := inside.read (k := 2) (by omega) at_channel
    show unroll params σ [.index "c" _, KernelSpec.emit _] = _
    rw [unroll_index channel, inside.emit (located?_activated_sum a
      (by rw [Term.located?_mul, value, scale]; rfl) bias)]
    rfl
  | @batchNormalization eps x outer channels o c r split ho hc hr =>
    have count : s.inputs.length = 5 := plans.count
    have channel := entered.coordinate (plans.operand 0) split hc hr
    have inside := entered.bind "c" (by decide) c
    have value := inside.read (k := 0) (by omega) inside.invocation
    have at_channel : (Index.named "c").value? (σ.bind "c" c) = some c := Scope.bind_self ..
    have gamma := inside.read (k := 1) (by omega) at_channel
    have beta := inside.read (k := 2) (by omega) at_channel
    have mean := inside.read (k := 3) (by omega) at_channel
    have variance := inside.read (k := 4) (by omega) at_channel
    show unroll params σ [.index "c" _, KernelSpec.emit _] = _
    rw [unroll_index channel]
    exact inside.emit (by simp [value, gamma, beta, mean, variance])
  | activation inside =>
    have x := entered.read (k := 0) (by simp [count]) entered.invocation
    show unroll params σ [.number "x" _, KernelSpec.emit _] = _
    rw [unroll_number x, entered.emit (located?_activated_named _ _)]
    rfl
  | reshape inside =>
    exact entered.emit (entered.read (by simp [count]) entered.invocation)
  | scalarAffine inside =>
    have x := entered.read (k := 0) (by simp [count]) entered.invocation
    exact entered.emit (by simp [x])
  | elementwiseAdd inside =>
    have x := entered.read (k := 0) (by simp [count]) entered.invocation
    show unroll params σ (.accumulator "acc" _ :: (_ ++ [KernelSpec.emit _])) = _
    rw [unroll_accumulator x, entered.accumulates _ fun k hk => ?_,
      entered.emit (located?_activated_named _ _)]
    · rfl
    · have := List.mem_range.1 hk
      omega

/-! ## Kernels and the evaluator -/

/-- In a graph without empty tensors, the kernel of a checked operator and the evaluator follow the
same recipes. Each invocation has one, whose index is that of the invocation: the code of the
kernel, unrolled, combines the elements that the recipe names in its order, and what the evaluator
computes has what the recipe gives. The invocations make every element of the result, each in one of
them. An entry point prints this code, whatever its name. -/
theorem follows_evaluator {g : Graph α} {op : Operator α} (checked : g.checkOperator op = .ok ⟨⟩)
    (positive : ∀ u, 0 ∉ g.shape u) {workgroupSize : Nat}
    (planned : ofOperator g op workgroupSize = .ok s) :
    (∀ i < s.invocations, ∃ recipe, op.kind.Makes (op.inputs.map g.shape) s.output i recipe) ∧
      (∀ i < s.invocations, ∀ recipe,
        op.kind.Makes (op.inputs.map g.shape) s.output i recipe → ∀ params σ, s.Launched σ i →
          unroll params σ s.code = some (recipe.code s params i, .finished)) ∧
      (∀ operands : List (Array α),
        operands.map Array.size = (op.inputs.map fun u => (g.shape u).size) →
          ∃ r, g.evaluateOperator op operands = .ok r ∧ ∀ i recipe,
            op.kind.Makes (op.inputs.map g.shape) s.output i recipe →
              recipe.Gives operands i r) ∧
      (∀ e < s.output.size, ∃! i, i < s.invocations ∧ ∃ recipe,
        op.kind.Makes (op.inputs.map g.shape) s.output i recipe ∧ e ∈ recipe.targets i) ∧
      ∀ name, s.source name = s.header name ++ Statement.bodyLines 1 s.code ++ "\x7d\n" := by
  obtain ⟨v, outputs, typed⟩ := Graph.checkOperator_iff.1 checked
  rw [← Graph.shapes_eq, ← Graph.shape_eq] at typed
  obtain ⟨plans, made⟩ := ofOperator_plans outputs planned
  rw [plans.output, plans.invocations]
  refine ⟨fun i hi => exists_makes typed made hi, fun i hi recipe makes params σ launched => ?_,
    fun operands sizes => ?_, fun e he => existsUnique_target typed made he, s.source_eq⟩
  · obtain ⟨σ', entered, run⟩ := unroll_preamble launched (plans.invocations.symm ▸ hi)
    rw [code, run, body_unrolled makes plans entered]
  · obtain ⟨r, run, size⟩ := Graph.evaluateOperator_total checked positive outputs sizes
    have computed := Graph.evaluateOperator_result run outputs
    rw [← Graph.shapes_eq, ← Graph.shape_eq] at computed
    have count : operands.length = (op.inputs.map g.shape).length := by
      simpa using congrArg List.length sizes
    exact ⟨r, run, fun i recipe makes => makes.gives count computed size⟩

end

end KernelSpec

/-- A convolution of two images that are not square, with a margin at the top and at the bottom. The
input channels of the filter are innermost. -/
def Graph.tallFilter : Graph Binary32 :=
  afterCalls .empty
    [.addVariable "x" [2, 1, 2, 3], .addVariable "w" [2, 2, 1, 1], .addVariable "y" [2, 2, 3, 2],
      .addOperator (.convolution ⟨⟨2, 1⟩, ⟨1, 2⟩, .symmetric 1 0, .ohwi, none⟩) [⟨0⟩, ⟨1⟩] [⟨2⟩],
      .designateInputs [⟨0⟩, ⟨1⟩], .designateOutputs [⟨2⟩]]

/-- The last element is one product: the lower row of the window is over the margin. -/
theorem KernelSpec.follows_evaluator_tallFilter : ∃ op s,
    Graph.tallFilter.operatorAt? ⟨0⟩ = some op ∧
    Graph.tallFilter.checkOperator op = .ok ⟨⟩ ∧ (∀ u, 0 ∉ Graph.tallFilter.shape u) ∧
    ofOperator Graph.tallFilter op 64 = .ok s ∧ 23 < s.invocations ∧
    ∃ σ : Scope, s.Launched σ 23 ∧
      op.kind.Makes (op.inputs.map Graph.tallFilter.shape) s.output 23
        (.products none none [(11, 2)]) ∧
      unroll (100 * ·) σ s.code = some ([.accumulator "acc" .zero,
        accumulate (.read .data (.literal 11) * .read .data (.literal 102)),
        .store (.literal 223) (.named "acc")], .finished) ∧
      ∃ r, Graph.tallFilter.evaluateOperator op
          [#[1, 1, 1, 1, 1, 1, 1, 1, 1, 1, 1, 5], #[1, 1, 3, 1]] = .ok r ∧ r[23]? = some 15 := by
  have positive : ∀ u, 0 ∉ Graph.tallFilter.shape u := by
    rintro ⟨_ | _ | _ | n⟩
    · decide
    · decide
    · decide
    · exact List.not_mem_nil
  let op : Operator Binary32 :=
    ⟨⟨0⟩, .convolution ⟨⟨2, 1⟩, ⟨1, 2⟩, .symmetric 1 0, .ohwi, none⟩, [⟨0⟩, ⟨1⟩], [⟨2⟩]⟩
  have checked : Graph.tallFilter.checkOperator op = .ok ⟨⟩ := by decide
  have makes : op.kind.Makes (op.inputs.map Graph.tallFilter.shape) [2, 2, 3, 2] 23
      (.products none none [(11, 2)]) :=
    @OperatorKind.Makes.convolution Binary32 ⟨⟨2, 1⟩, ⟨1, 2⟩, .symmetric 1 0, .ohwi, none⟩
      ⟨2, 1, 2, 3⟩ ⟨2, 1, 2, 1⟩ none 3 2 1 1 2 1 rfl rfl (by decide) (by decide) (by decide)
      (by decide)
  let σ : Scope := fun x => if x = "gid.x" then some 23 else some 0
  obtain ⟨_, unrolled, computed, _⟩ := follows_evaluator checked positive
    (show ofOperator Graph.tallFilter op 64 = .ok _ from rfl)
  obtain ⟨r, run, gives⟩ := computed [#[1, 1, 1, 1, 1, 1, 1, 1, 1, 1, 1, 5], #[1, 1, 3, 1]]
    (by decide)
  refine ⟨op, _, rfl, checked, positive, rfl, by decide, σ, ⟨23, 0, 0, rfl, rfl, rfl, rfl⟩,
    makes, unrolled 23 (by decide) _ makes _ σ ⟨23, 0, 0, rfl, rfl, rfl, rfl⟩, r, run, ?_⟩
  obtain ⟨made, results, _, element⟩ := gives 23 _ makes
  have fifteen : (Recipe.products none none [(11, 2)]).results?
      [#[1, 1, 1, 1, 1, 1, 1, 1, 1, 1, 1, 5], #[1, 1, 3, 1]] 23 = some [(23, (15 : Binary32))] := by
    decide
  cases fifteen.symm.trans results
  exact element 23 15 List.mem_cons_self

end TensorGraph
