import Mathlib.Data.List.GetD
import TensorGraph.Proofs.Evaluation.Grid

/-!
# TensorGraph.Proofs.Evaluation.Recipe

Which elements of the operands make an element of a result, and how they are combined.

* `Recipe`: the ways in which elements come about, their operands' elements named by index.
* `OperatorKind.Makes`: the recipe for an index of a result, by the position the index belongs to.
* `exists_makes`: there is one for every index.
* `Makes.gives`: what it gives is what the kind computes.
* `Makes.target_unique`: every element of a result is made for one index.
-/

namespace TensorGraph

open Kernel (Buffer)

/-- How the element at an index comes about, or the row of a softmax that an index counts. -/
inductive Recipe (α : Type) where
  | activated (a : Activation α)
  | copied
  | scaled (scale bias : α)
  | summed (a : Option (Activation α))
  | affine (a : Option (Activation α)) (channel : Nat)
  | normalized (eps : α) (channel : Nat)
  /-- Products of elements of the first two operands, behind an element of the third if there is
  one. -/
  | products (a : Option (Activation α)) (start : Option Nat) (factors : List (Nat × Nat))
  | pooled (p : Pooling) (pixels : List Nat)
  | row (elements : List Nat)

namespace Recipe

variable {α : Type}

/-- The elements that are made for an index. -/
def targets (i : Nat) : Recipe α → List Nat
  | .row elements => elements
  | _ => [i]

/-- Element `e` of operand `k`. -/
def operandAt (operands : List (Buffer α)) (k e : Nat) : Option α := operands[k]?.bind (·[e]?)

variable [Scalar α]

/-- The elements that are made for index `i`, with their values. -/
def results? (operands : List (Buffer α)) (i : Nat) : Recipe α → Option (List (Nat × α))
  | .activated a => do return [(i, a.apply (← operandAt operands 0 i))]
  | .copied => do return [(i, ← operandAt operands 0 i)]
  | .scaled scale bias => do return [(i, (← operandAt operands 0 i) * scale + bias)]
  | .summed a => do
    let sum ← operands.foldlM (fun acc x => do return acc + (← x[i]?)) Scalar.emptySum
    return [(i, Activation.applyTo a sum)]
  | .affine a c => do
    let v ← operandAt operands 0 i
    let scale ← operandAt operands 1 c
    let bias ← operandAt operands 2 c
    return [(i, Activation.applyTo a (v * scale + bias))]
  | .normalized eps c => do
    let v ← operandAt operands 0 i
    let mean ← operandAt operands 3 c
    let variance ← operandAt operands 4 c
    let gamma ← operandAt operands 1 c
    let beta ← operandAt operands 2 c
    return [(i, (v - mean) / Scalar.sqrt (variance + eps) * gamma + beta)]
  | .products a start factors => do
    let start ← start.elim (some Scalar.zero) (operandAt operands 2)
    let sum ← factors.foldlM (fun acc (m, n) => do
      return acc + (← operandAt operands 0 m) * (← operandAt operands 1 n)) start
    return [(i, Activation.applyTo a sum)]
  | .pooled p pixels => do
    return [(i, Kernel.poolWindow p (← pixels.mapM (operandAt operands 0)))]
  | .row elements => do
    return elements.zip (Kernel.softmaxRow (← elements.mapM (operandAt operands 0)))

/-- A result has what the recipe for index `i` makes. -/
def Gives (recipe : Recipe α) (operands : List (Buffer α)) (i : Nat) (r : Buffer α) : Prop :=
  ∃ made, recipe.results? operands i = some made ∧ made.map Prod.fst = recipe.targets i ∧
    ∀ e v, (e, v) ∈ made → r[e]? = some v

end Recipe

/-! ## The elements under a window or in a row -/

namespace Kernel

/-- The pixels under a window and the filter elements over them, as they are multiplied for one
element of a convolution. -/
def convolutionReads {α : Type} (p : Convolution α) (image : ImageShape) (dims : FilterDims)
    (b o oy ox : Nat) : List (Nat × Nat) :=
  (taps image.channels p.kernel).filterMap fun (i, ky, kx) =>
    (windowPixel? p.stride (p.margins image.extent) image oy ox ky kx).map fun (iy, ix) =>
      (flatIndex image.channels image.height image.width (b, i, iy, ix),
        p.layout.offset dims o i ky kx)

/-- The pixels of a plane under a window. -/
def poolingReads (p : Pooling) (image : ImageShape) (plane oy ox : Nat) : List Nat :=
  (windowOffsets p.kernel).filterMap fun (ky, kx) =>
    (windowPixel? p.stride (p.effectiveMargins image.extent) image oy ox ky kx).map
      fun (iy, ix) => (plane * image.height + iy) * image.width + ix

/-- The row behind `o` blocks, at place `r` in its block. -/
def rowReads (dim inner o r : Nat) : List Nat :=
  (List.range dim).map fun d => (o * dim + d) * inner + r

end Kernel

/-- An axis of `dim` steps, with `outer` positions in front of it. -/
structure Shape.Axis (s : Shape) (axis outer dim : Nat) : Prop where
  extent : s[axis]? = some dim
  elements : outer * dim * s.inner axis = s.size

open Kernel

/-- The recipe for an index of a result of shape `out`. The index is that of a position. -/
inductive OperatorKind.Makes {α : Type} :
    OperatorKind α → List Shape → Shape → Nat → Recipe α → Prop
  | activation {a : Activation α} {x : Shape} {others : List Shape} {out : Shape} {i : Nat}
      (inside : i < out.size) : Makes (.activation a) (x :: others) out i (.activated a)
  | reshape {shape x : Shape} {others : List Shape} {out : Shape} {i : Nat}
      (inside : i < out.size) : Makes (.reshape shape) (x :: others) out i .copied
  | scalarAffine {scale bias : α} {x : Shape} {others : List Shape} {out : Shape} {i : Nat}
      (inside : i < out.size) :
      Makes (.scalarAffine scale bias) (x :: others) out i (.scaled scale bias)
  | elementwiseAdd {a : Option (Activation α)} {x : Shape} {others : List Shape} {out : Shape}
      {i : Nat} (inside : i < out.size) : Makes (.elementwiseAdd a) (x :: others) out i (.summed a)
  | axiswiseAffine {axis : Nat} {a : Option (Activation α)} {x : Shape}
      {outer dim o c r : Nat} (split : x.Axis axis outer dim) (ho : o < outer) (hc : c < dim)
      (hr : r < x.inner axis) : Makes (.axiswiseAffine axis a) [x, [dim], [dim]] x
        ((o * dim + c) * x.inner axis + r) (.affine a c)
  | batchNormalization {eps : α} {x : Shape} {outer channels o c r : Nat}
      (split : x.Axis 1 outer channels) (ho : o < outer) (hc : c < channels) (hr : r < x.inner 1) :
      Makes (.batchNormalization eps) [x, [channels], [channels], [channels], [channels]] x
        ((o * channels + c) * x.inner 1 + r) (.normalized eps c)
  | linear {a : Option (Activation α)} {batch features outputs : Nat} {rest : Shape}
      {bias : Option Shape} {b o : Nat} (hb : b < batch) (ho : o < outputs) :
      Makes (.linear a) ((batch :: rest) :: [outputs, features] :: bias.toList) [batch, outputs]
        (b * outputs + o) (.products a (bias.map fun _ => o)
          ((List.range features).map fun k => (b * features + k, o * features + k)))
  | convolution {p : Convolution α} {image : ImageShape} {dims : FilterDims} {bias : Option Shape}
      {height width b o oy ox : Nat} (channels : dims.inputs = image.channels)
      (kernel : (⟨dims.height, dims.width⟩ : Extent) = p.kernel) (hb : b < image.batch)
      (ho : o < dims.outputs) (hy : oy < height) (hx : ox < width) :
      Makes (.convolution p) (image.toShape :: p.layout.shape dims :: bias.toList)
        [image.batch, dims.outputs, height, width]
        (flatIndex dims.outputs height width (b, o, oy, ox))
        (.products p.activation (bias.map fun _ => o) (convolutionReads p image dims b o oy ox))
  | pooling {p : Pooling} {image : ImageShape} {height width plane oy ox : Nat}
      (hp : plane < image.batch * image.channels) (hy : oy < height) (hx : ox < width) :
      Makes (.pooling p) [image.toShape] [image.batch, image.channels, height, width]
        ((plane * height + oy) * width + ox) (.pooled p (poolingReads p image plane oy ox))
  | softmax {axis : Nat} {x : Shape} {outer dim o r : Nat} (split : x.Axis axis outer dim)
      (ho : o < outer) (hr : r < x.inner axis) :
      Makes (.softmax axis) [x] x (o * x.inner axis + r) (.row (rowReads dim (x.inner axis) o r))

namespace OperatorKind

variable {α : Type}

/-- The number of recipes: one to an element, or to a row of a softmax. -/
def recipeCount (kind : OperatorKind α) (out : Shape) : Nat :=
  match kind with
  | .softmax axis => out.size / out.getD axis 1
  | _ => out.size

end OperatorKind

/-! ## Every index has a recipe -/

namespace Kernel

theorem Numbered.position {π : Type} {positions : List π} {index : π → Nat}
    (h : Numbered positions index) {i : Nat} (hi : i < positions.length) :
    ∃ p ∈ positions, index p = i :=
  ⟨positions[i], List.getElem_mem hi, h.index (List.getElem?_eq_getElem hi)⟩

theorem index_div {a b m : Nat} (h : b < m) : (a * m + b) / m = a := by
  rw [Nat.mul_comm, Nat.mul_add_div (Nat.zero_lt_of_lt h), Nat.div_eq_of_lt h, Nat.add_zero]

theorem index_mod {a b m : Nat} (h : b < m) : (a * m + b) % m = b := by
  rw [Nat.mul_comm, Nat.mul_add_mod, Nat.mod_eq_of_lt h]

theorem index_unique {a b a' b' m : Nat} (h : b < m) (h' : b' < m)
    (same : a * m + b = a' * m + b') : a = a' ∧ b = b' :=
  ⟨by rw [← index_div (a := a) h, same, index_div h'],
    by rw [← index_mod (a := a) h, same, index_mod h']⟩

theorem exists_pair {n m i : Nat} (hi : i < n * m) : ∃ a < n, ∃ b < m, a * m + b = i := by
  obtain ⟨⟨a, b⟩, mem, index⟩ := (numbered_pairs n m).position (i := i)
    (by rwa [length_flatMap_range fun _ => (List.length_map _).trans List.length_range])
  exact ⟨a, by simp_all, b, by simp_all, index⟩

theorem exists_position {a b c d n : Nat} (hn : n < a * b * c * d) :
    ∃ i < a, ∃ j < b, ∃ k < c, ∃ l < d, flatIndex b c d (i, j, k, l) = n := by
  obtain ⟨⟨i, j, k, l⟩, mem, index⟩ := (numbered_grid4 a b c d).position (i := n)
    (by rwa [grid4_length])
  obtain ⟨hi, hj, hk, hl⟩ := mem_grid4.1 mem
  exact ⟨i, hi, j, hj, k, hk, l, hl, index⟩

end Kernel

namespace Shape

variable {s : Shape} {axis outer dim : Nat}

theorem exists_axis (h : s[axis]? = some dim) : ∃ outer, s.Axis axis outer dim :=
  ⟨s.size / (dim * s.inner axis), h, by rw [Nat.mul_assoc, Nat.div_mul_cancel (block_dvd h)]⟩

theorem Axis.position (split : s.Axis axis outer dim) {i : Nat} (hi : i < s.size) :
    ∃ o < outer, ∃ c < dim, ∃ r < s.inner axis, (o * dim + c) * s.inner axis + r = i := by
  rw [← split.elements] at hi
  obtain ⟨b, hb, r, hr, rfl⟩ := exists_pair hi
  obtain ⟨o, ho, c, hc, rfl⟩ := exists_pair hb
  exact ⟨o, ho, c, hc, r, hr, rfl⟩

theorem Axis.getD (split : s.Axis axis outer dim) : s.getD axis 0 = dim := by
  rw [List.getD_eq_getElem?_getD, split.extent]
  rfl

/-- The rows along an axis. -/
theorem Axis.rows (split : s.Axis axis outer dim) (positive : 0 < dim) :
    s.size / dim = outer * s.inner axis := by
  rw [← split.elements, Nat.mul_right_comm, Nat.mul_div_cancel _ positive]

end Shape

section

variable {α : Type} [Scalar α]

theorem exists_makes {kind : OperatorKind α} {shapes : List Shape} {out : Shape}
    (typed : kind.outputShape shapes = .ok out) (made : ∀ p, kind ≠ .responseNormalization p)
    {i : Nat} (hi : i < kind.recipeCount out) : ∃ recipe, kind.Makes shapes out i recipe := by
  cases kind with
  | convolution p =>
    obtain ⟨_, _, bias, rfl, result⟩ := convolutionShape_ok_iff.1 typed
    obtain ⟨image, dims, extent, rfl, rfl, _, channels, kernel, _, rfl⟩ :=
      convolutionResult_ok_iff.1 result
    obtain ⟨b, hb, o, ho, oy, hy, ox, hx, rfl⟩ := exists_position ((size4 _ _ _ _).subst hi)
    exact ⟨_, .convolution channels kernel hb ho hy hx⟩
  | linear a =>
    obtain ⟨_, _, bias, rfl, result⟩ := linearShape_ok_iff.1 typed
    obtain ⟨batch, features, outputs, rfl, _, rfl, _, rfl⟩ := linearResult_ok_iff.1 result
    obtain ⟨b, hb, o, ho, rfl⟩ := exists_pair (n := batch) (m := outputs) (i := i)
      (by simpa [OperatorKind.recipeCount] using hi)
    exact ⟨_, .linear hb ho⟩
  | pooling p =>
    obtain ⟨image, extent, rfl, _, rfl⟩ := poolingShape_ok_iff.1 typed
    obtain ⟨b, hb, ox, hx, rfl⟩ := exists_pair ((size4 _ _ _ _).subst hi)
    obtain ⟨plane, hp, oy, hy, rfl⟩ := exists_pair hb
    exact ⟨_, .pooling hp hy hx⟩
  | batchNormalization eps =>
    obtain ⟨_, channels, extent, rfl⟩ := batchNormalizationShape_ok_iff.1 typed
    obtain ⟨outer, split⟩ := Shape.exists_axis extent
    obtain ⟨o, ho, c, hc, r, hr, rfl⟩ := split.position hi
    exact ⟨_, .batchNormalization split ho hc hr⟩
  | axiswiseAffine axis a =>
    obtain ⟨dim, extent, rfl⟩ := axiswiseAffineShape_ok_iff.1 typed
    obtain ⟨outer, split⟩ := Shape.exists_axis extent
    obtain ⟨o, ho, c, hc, r, hr, rfl⟩ := split.position hi
    exact ⟨_, .axiswiseAffine split ho hc hr⟩
  | softmax axis =>
    obtain ⟨x, rfl, result⟩ := unaryShape_ok_iff.1 typed
    obtain ⟨inside, e⟩ := require_bind_ok_iff.1 result
    obtain rfl := pure_ok_iff.1 e
    have inside : axis < out.length := by simpa using inside
    obtain ⟨outer, split⟩ := Shape.exists_axis (List.getElem?_eq_getElem inside)
    have hi : i < out.size / out[axis] := by
      rwa [OperatorKind.recipeCount, List.getD_eq_getElem _ _ inside] at hi
    have positive : 0 < out[axis] := Nat.pos_of_ne_zero fun e => by simp [e] at hi
    rw [split.rows positive] at hi
    obtain ⟨o, ho, r, hr, rfl⟩ := exists_pair hi
    exact ⟨_, .softmax split ho hr⟩
  | responseNormalization p => exact absurd rfl (made p)
  | activation a =>
    obtain ⟨x, rfl, _⟩ := unaryShape_ok_iff.1 typed
    exact ⟨_, .activation hi⟩
  | reshape shape =>
    obtain ⟨x, rfl, _⟩ := unaryShape_ok_iff.1 typed
    exact ⟨_, .reshape hi⟩
  | scalarAffine scale bias =>
    obtain ⟨x, rfl, _⟩ := unaryShape_ok_iff.1 typed
    exact ⟨_, .scalarAffine hi⟩
  | elementwiseAdd a =>
    match shapes, elementwiseAddShape_ok_iff.1 typed with
    | x :: others, _ => exact ⟨_, .elementwiseAdd hi⟩

end

/-! ## Every element is made once -/

section

variable {α : Type} {kind : OperatorKind α} {shapes : List Shape} {out : Shape} {i j e : Nat}
  {recipe other : Recipe α}

theorem Kernel.mem_rowReads {dim inner o r : Nat} :
    e ∈ rowReads dim inner o r ↔ ∃ d < dim, (o * dim + d) * inner + r = e := by
  simp [rowReads]

theorem Kernel.getElem?_rowReads {dim inner o r d : Nat} :
    (rowReads dim inner o r)[d]? = some e ↔ d < dim ∧ (o * dim + d) * inner + r = e := by
  by_cases inside : d < dim <;> simp [rowReads, inside]

theorem OperatorKind.Makes.targets_eq (h : kind.Makes shapes out i recipe)
    (other : ∀ axis, kind ≠ .softmax axis) : recipe.targets i = [i] := by
  cases h with
  | softmax => exact absurd rfl (other _)
  | _ => rfl

theorem OperatorKind.Makes.target_unique (h : kind.Makes shapes out i recipe)
    (h' : kind.Makes shapes out j other) (he : e ∈ recipe.targets i) (he' : e ∈ other.targets j) :
    i = j := by
  by_cases rows : ∃ axis, kind = .softmax axis
  · obtain ⟨axis, rfl⟩ := rows
    cases h with
    | softmax split ho hr =>
    cases h' with
    | softmax split' ho' hr' =>
    cases split.extent.symm.trans split'.extent
    obtain ⟨d, hd, rfl⟩ := mem_rowReads.1 he
    obtain ⟨d', hd', same⟩ := mem_rowReads.1 he'
    obtain ⟨blocks, rfl⟩ := index_unique hr' hr same
    obtain ⟨rfl, _⟩ := index_unique hd' hd blocks
    rfl
  · rw [h.targets_eq fun axis soft => rows ⟨axis, soft⟩, List.mem_singleton] at he
    rw [h'.targets_eq fun axis soft => rows ⟨axis, soft⟩, List.mem_singleton] at he'
    exact he.symm.trans he'

/-- Each element of a result is made for exactly one index. -/
theorem existsUnique_target [Scalar α] (typed : kind.outputShape shapes = .ok out)
    (made : ∀ p, kind ≠ .responseNormalization p) (he : e < out.size) :
    ∃! i, i < kind.recipeCount out ∧ ∃ recipe, kind.Makes shapes out i recipe ∧
      e ∈ recipe.targets i := by
  refine existsUnique_of_exists_of_unique ?_ fun i j ⟨_, _, h, mem⟩ ⟨_, _, h', mem'⟩ =>
    h.target_unique h' mem mem'
  by_cases rows : ∃ axis, kind = .softmax axis
  · obtain ⟨axis, rfl⟩ := rows
    obtain ⟨x, rfl, result⟩ := unaryShape_ok_iff.1 typed
    obtain ⟨inside, same⟩ := require_bind_ok_iff.1 result
    obtain rfl := pure_ok_iff.1 same
    have inside : axis < out.length := by simpa using inside
    obtain ⟨outer, split⟩ := Shape.exists_axis (List.getElem?_eq_getElem inside)
    obtain ⟨o, ho, d, hd, r, hr, rfl⟩ := split.position he
    refine ⟨o * out.inner axis + r, ?_, _, .softmax split ho hr, mem_rowReads.2 ⟨d, hd, rfl⟩⟩
    rw [OperatorKind.recipeCount, List.getD_eq_getElem _ _ inside,
      split.rows (Nat.zero_lt_of_lt hd)]
    exact index_lt ho hr
  · have count : kind.recipeCount out = out.size := by
      cases kind with
      | softmax axis => exact absurd ⟨axis, rfl⟩ rows
      | _ => rfl
    obtain ⟨recipe, h⟩ := exists_makes typed made (count.symm ▸ he)
    refine ⟨e, count.symm ▸ he, recipe, h, ?_⟩
    rw [h.targets_eq fun axis soft => rows ⟨axis, soft⟩]
    exact List.mem_singleton_self e

end

/-! ## The kernels follow the recipes -/

section

variable {α : Type} [Scalar α] {kind : OperatorKind α} {shapes : List Shape} {out : Shape}
  {i : Nat} {recipe : Recipe α} {operands : List (Buffer α)} {r : Buffer α}

omit [Scalar α] in
/-- A tabulated buffer has the value of each position at its index. -/
theorem Kernel.Numbered.value {π : Type} {positions : List π} {index : π → Nat}
    (h : Numbered positions index) {f : π → Option α} {r : Buffer α}
    (made : tabulate positions f = some r) {p : π} (hp : p ∈ positions) :
    ∃ v, f p = some v ∧ r[index p]? = some v := by
  have element := h.getElem? made hp
  obtain ⟨j, hj⟩ := List.mem_iff_getElem?.1 hp
  have inside : index p < r.size := by
    rw [h.index hj, (tabulate_eq_some_iff.1 made).1]
    exact (List.getElem?_eq_some_iff.1 hj).1
  obtain ⟨v, hv⟩ := getElem?_total inside
  exact ⟨v, element.symm.trans hv, hv⟩

/-- A recipe that makes one element. -/
theorem Recipe.Gives.single {v : α} (made : recipe.results? operands i = some [(i, v)])
    (target : recipe.targets i = [i]) (value : r[i]? = some v) : recipe.Gives operands i r := by
  refine ⟨_, made, target.symm, fun e u h => ?_⟩
  cases List.mem_singleton.1 h
  exact value

/-- A convolution multiplies what the recipe says. -/
theorem Kernel.convolutionAt_reads (p : Convolution α) (x : Buffer α) (image : ImageShape)
    (w : Buffer α) (dims : FilterDims) (bias : Option (Buffer α)) (b o oy ox : Nat) :
    convolutionAt p (p.margins image.extent) x image w dims bias b o oy ox = (do
      let start ← biasAt bias o
      (convolutionReads p image dims b o oy ox).foldlM
        (fun acc (m, n) => do return acc + (← x[m]?) * (← w[n]?)) start) := by
  unfold convolutionAt convolutionReads
  refine congrArg (biasAt bias o >>= ·) (funext fun start => ?_)
  rw [List.foldlM_filterMap]
  refine congrArg (List.foldlM · start _) (funext fun acc => funext fun (i, ky, kx) => ?_)
  dsimp only
  cases windowPixel? p.stride (p.margins image.extent) image oy ox ky kx <;> rfl

omit [Scalar α] in
/-- A pooling reads what the recipe says. -/
theorem Kernel.windowValues_reads (p : Pooling) (x : Buffer α) (image : ImageShape)
    (plane oy ox : Nat) : windowValues p (p.effectiveMargins image.extent) x image plane oy ox =
      (poolingReads p image plane oy ox).mapM (x[·]?) := by
  unfold windowValues poolingReads
  rw [← List.map_filterMap, List.mapM_map]
  rfl

/-- The third operand is the bias, if there is one. -/
theorem Recipe.start_eq {bias : Option Shape} {x w : Buffer α} {rest : List (Buffer α)}
    (count : rest.length = bias.toList.length) (o : Nat) :
    (bias.map fun _ => o).elim (some Scalar.zero) (operandAt (x :: w :: rest) 2) =
      biasAt rest.head? o := by
  match bias, rest, count with
  | none, [], _ => rfl
  | some _, [_], _ => rfl

theorem Recipe.gives_products {a : Option (Activation α)} {bias : Option Shape} {o : Nat}
    {factors : List (Nat × Nat)} {x w : Buffer α} {rest : List (Buffer α)}
    (count : rest.length = bias.toList.length) {start v : α}
    (first : biasAt rest.head? o = some start)
    (sum : factors.foldlM (fun acc (m, n) => do return acc + (← x[m]?) * (← w[n]?)) start = some v)
    (value : r[i]? = some (Activation.applyTo a v)) :
    (Recipe.products a (bias.map fun _ => o) factors).Gives (x :: w :: rest) i r := by
  refine .single (v := Activation.applyTo a v) ?_ rfl value
  show (do
    let start ← (bias.map fun _ => o).elim (some Scalar.zero) (operandAt (x :: w :: rest) 2)
    let sum ← factors.foldlM
      (fun acc (factor : Nat × Nat) => do return acc + (← x[factor.1]?) * (← w[factor.2]?)) start
    return [(i, Activation.applyTo a sum)]) = _
  rw [start_eq count, first, Option.bind_eq_bind, Option.bind_some, sum]
  rfl

theorem Recipe.gives_convolution {p : Convolution α} {image : ImageShape} {dims : FilterDims}
    {bias : Option Shape} (out : Extent) {b o oy ox : Nat} {x w : Buffer α}
    {rest : List (Buffer α)} (hb : b < image.batch) (ho : o < dims.outputs) (hy : oy < out.height)
    (hx : ox < out.width) (count : rest.length = bias.toList.length)
    (run : convolution p x image w (p.layout.shape dims) rest.head? out = some r) :
    (Recipe.products p.activation (bias.map fun _ => o)
      (convolutionReads p image dims b o oy ox)).Gives (x :: w :: rest)
        (flatIndex dims.outputs out.height out.width (b, o, oy, ox)) r := by
  rw [convolution, FilterLayout.dims?_shape] at run
  obtain ⟨v, made, value⟩ := (numbered_grid4 _ _ _ _).value run
    (mem_grid4.2 ⟨hb, ho, hy, hx⟩)
  obtain ⟨sum, at_position, e⟩ := Option.bind_eq_some_iff.1 made
  cases e
  rw [← ImageShape.extent, convolutionAt_reads] at at_position
  obtain ⟨start, first, sum_eq⟩ := Option.bind_eq_some_iff.1 at_position
  exact gives_products count first sum_eq value

theorem Recipe.gives_linear {a : Option (Activation α)} {bias : Option Shape}
    {batch features outputs b o : Nat} {x w : Buffer α} {rest : List (Buffer α)} (hb : b < batch)
    (ho : o < outputs) (count : rest.length = bias.toList.length)
    (run : linear a x batch features w outputs rest.head? = some r) :
    (Recipe.products a (bias.map fun _ => o) ((List.range features).map fun k =>
      (b * features + k, o * features + k))).Gives (x :: w :: rest) (b * outputs + o) r := by
  obtain ⟨v, made, value⟩ := (numbered_pairs batch outputs).value run (p := (b, o))
    (by simp [hb, ho])
  obtain ⟨start, first, made⟩ := Option.bind_eq_some_iff.1 made
  obtain ⟨sum, sum_eq, e⟩ := Option.bind_eq_some_iff.1 made
  cases e
  refine gives_products count first ?_ value
  rw [List.foldlM_map]
  exact sum_eq

theorem Recipe.gives_pooling {p : Pooling} {image : ImageShape} (out : Extent)
    {plane oy ox : Nat} {x : Buffer α} (hp : plane < image.batch * image.channels)
    (hy : oy < out.height) (hx : ox < out.width) (run : pooling p x image out = some r) :
    (Recipe.pooled p (poolingReads p image plane oy ox)).Gives [x]
      ((plane * out.height + oy) * out.width + ox) r := by
  obtain ⟨v, made, value⟩ := (numbered_grid4 1 _ _ _).value run (p := (0, plane, oy, ox))
    (mem_grid4.2 ⟨Nat.one_pos, hp, hy, hx⟩)
  dsimp only at made
  rw [← ImageShape.extent, windowValues_reads] at made
  obtain ⟨values, read, rfl⟩ := Option.map_eq_some_iff.1 made
  simp only [flatIndex, Nat.zero_mul, Nat.zero_add] at value
  refine .single (v := poolWindow p values) ?_ rfl value
  show (do return [(_, poolWindow p (← (poolingReads p image plane oy ox).mapM (x[·]?)))]) = _
  rw [read]
  rfl

omit [Scalar α] in
/-- An element of what a kernel makes along an axis. -/
theorem Kernel.alongAxis_element {x : Buffer α} {shape : Shape} {axis dim : Nat}
    {f : α → Nat → Option α} (run : alongAxis x shape axis f = some r)
    (hdim : shape[axis]? = some dim) {o c k : Nat} (hc : c < dim) (hk : k < shape.inner axis)
    (inside : (o * dim + c) * shape.inner axis + k < r.size) :
    ∃ v y, x[(o * dim + c) * shape.inner axis + k]? = some v ∧ f v c = some y ∧
      r[(o * dim + c) * shape.inner axis + k]? = some y := by
  rw [alongAxis, hdim, Option.bind_eq_bind, Option.bind_some] at run
  obtain ⟨size, each⟩ := tabulate_eq_some_iff.1 run
  generalize hi : (o * dim + c) * shape.inner axis + k = i at *
  have held : i < x.size := by simpa [size] using inside
  have here := each i (x[i], i) (by simp [held])
  have coordinate : coordinate? (shape.inner axis) dim i = some c := by
    rw [coordinate?, if_neg (by omega), ← hi, index_div hk, index_mod hc]
  rw [Array.getElem?_eq_getElem inside] at here
  simp only [coordinate, Option.bind_eq_bind, Option.bind_some] at here
  exact ⟨x[i], _, Array.getElem?_eq_getElem held, here, Array.getElem?_eq_getElem inside⟩

/-- A row of a softmax. -/
theorem Recipe.gives_softmax {axis outer dim o k : Nat} {shape : Shape} {x : Buffer α}
    (split : shape.Axis axis outer dim) (ho : o < outer) (hk : k < shape.inner axis)
    (run : softmax axis x shape = some r) (size : r.size = shape.size) :
    (Recipe.row (rowReads dim (shape.inner axis) o k)).Gives [x]
      (o * shape.inner axis + k) r := by
  rw [softmax, split.extent, Option.bind_eq_bind, Option.bind_some] at run
  dsimp only at run
  split at run
  · cases run
  · next some_block =>
    obtain ⟨rows, made, run⟩ := Option.bind_eq_some_iff.1 run
    obtain ⟨y, tabulated, done⟩ := Option.bind_eq_some_iff.1 run
    cases done
    have blocks : x.size = shape.size := by
      have short : y.size ≤ x.size := by
        rw [(tabulate_eq_some_iff.1 tabulated).1, grid4_length, Nat.one_mul, Nat.mul_assoc]
        exact Nat.div_mul_le_self _ _
      simp only [filled, Array.size_append, Array.size_replicate] at size
      omega
    have count : x.size / (dim * shape.inner axis) = outer := by
      rw [blocks, ← split.elements, Nat.mul_assoc, Nat.mul_div_cancel _ (by omega)]
    rw [count] at made tabulated
    obtain ⟨vs, values, length, results⟩ := softmax_row made tabulated ho hk
    have read : (rowReads dim (shape.inner axis) o k).mapM (x[·]?) = some vs := by
      refine mapM_eq_some_iff.2 ⟨by simp [rowReads, length], fun d e he => ?_⟩
      obtain ⟨hd, rfl⟩ := getElem?_rowReads.1 he
      obtain ⟨v, hv, place⟩ := values d hd
      exact place.trans hv.symm
    refine ⟨(rowReads dim (shape.inner axis) o k).zip (softmaxRow vs), ?_,
      List.map_fst_zip (by simp [rowReads, softmaxRow, length]), fun e v mem => ?_⟩
    · show (do return (rowReads dim (shape.inner axis) o k).zip (softmaxRow
        (← (rowReads dim (shape.inner axis) o k).mapM (x[·]?)))) = _
      rw [read]
      rfl
    · obtain ⟨d, at_place⟩ := List.mem_iff_getElem?.1 mem
      obtain ⟨element, value⟩ := List.getElem?_zip_eq_some.1 at_place
      obtain ⟨hd, rfl⟩ := getElem?_rowReads.1 element
      have placed := (results d hd).trans value
      have inside : (o * dim + d) * shape.inner axis + k < y.size := by
        exact (Array.getElem?_eq_some_iff.1 placed).1
      rw [filled, Array.getElem?_append_left inside, placed]

omit [Scalar α] in
theorem weighted_of_length {operands : List (Buffer α)} {s t : Shape} {bias : Option Shape}
    (count : operands.length = (s :: t :: bias.toList).length) :
    ∃ x w rest, operands = x :: w :: rest ∧ rest.length = bias.toList.length := by
  rcases operands with _ | ⟨x, _ | ⟨w, rest⟩⟩
  · cases count
  · cases count
  · exact ⟨x, w, rest, rfl, Nat.succ.inj (Nat.succ.inj count)⟩

theorem OperatorKind.Makes.gives (h : kind.Makes shapes out i recipe)
    (count : operands.length = shapes.length) (run : kind.compute shapes out operands = some r)
    (size : r.size = out.size) : recipe.Gives operands i r := by
  cases h with
  | convolution channels kernel hb ho hy hx =>
    obtain ⟨x, w, rest, rfl, bias⟩ := weighted_of_length count
    exact Recipe.gives_convolution ⟨_, _⟩ hb ho hy hx bias run
  | linear hb ho =>
    obtain ⟨x, w, rest, rfl, bias⟩ := weighted_of_length count
    exact Recipe.gives_linear hb ho bias run
  | pooling hp hy hx =>
    obtain ⟨x, rfl⟩ := List.length_eq_one_iff.1 count
    exact Recipe.gives_pooling ⟨_, _⟩ hp hy hx run
  | softmax split ho hr =>
    obtain ⟨x, rfl⟩ := List.length_eq_one_iff.1 count
    exact Recipe.gives_softmax split ho hr run size
  | axiswiseAffine split ho hc hr =>
    rcases operands with _ | ⟨x, _ | ⟨scale, _ | ⟨bias, _ | _⟩⟩⟩ <;> try cases count
    replace run : Kernel.axiswiseAffine _ _ x out scale bias = some r := run
    rw [Kernel.axiswiseAffine] at run
    obtain ⟨v, y, element, made, value⟩ := alongAxis_element run split.extent hc hr
      (by rw [size, ← split.elements]; exact index_lt (index_lt ho hc) hr)
    obtain ⟨s, hs, made⟩ := Option.bind_eq_some_iff.1 made
    obtain ⟨b, hb, made⟩ := Option.bind_eq_some_iff.1 made
    cases made
    refine .single ?_ rfl value
    simp [Recipe.results?, Recipe.operandAt, element, hs, hb]
  | batchNormalization split ho hc hr =>
    rcases operands with
      _ | ⟨x, _ | ⟨gamma, _ | ⟨beta, _ | ⟨mean, _ | ⟨variance, _ | _⟩⟩⟩⟩⟩ <;> try cases count
    replace run : Kernel.batchNormalization _ x out gamma beta mean variance = some r := run
    rw [Kernel.batchNormalization] at run
    obtain ⟨v, y, element, made, value⟩ := alongAxis_element run split.extent hc hr
      (by rw [size, ← split.elements]; exact index_lt (index_lt ho hc) hr)
    obtain ⟨m, hm, made⟩ := Option.bind_eq_some_iff.1 made
    obtain ⟨s, hs, made⟩ := Option.bind_eq_some_iff.1 made
    obtain ⟨g, hg, made⟩ := Option.bind_eq_some_iff.1 made
    obtain ⟨b, hb, made⟩ := Option.bind_eq_some_iff.1 made
    cases made
    refine .single ?_ rfl value
    simp [Recipe.results?, Recipe.operandAt, element, hm, hs, hg, hb]
  | activation inside =>
    rcases operands with _ | ⟨x, _ | _⟩ <;> cases run
    rw [← size, pointwise, Array.size_map] at inside
    have element := Array.getElem?_eq_getElem inside
    exact .single (by simp [Recipe.results?, Recipe.operandAt, element]; rfl) rfl
      (by simp [pointwise, element])
  | reshape inside =>
    rcases operands with _ | ⟨x, _ | _⟩ <;> cases run
    rw [← size] at inside
    have element := Array.getElem?_eq_getElem inside
    exact .single (v := r[i]) (by simp [Recipe.results?, Recipe.operandAt, element]) rfl element
  | scalarAffine inside =>
    rcases operands with _ | ⟨x, _ | _⟩ <;> cases run
    rw [← size, Kernel.scalarAffine, Array.size_map] at inside
    have element := Array.getElem?_eq_getElem inside
    exact .single (by simp [Recipe.results?, Recipe.operandAt, element]; rfl) rfl
      (by simp [Kernel.scalarAffine, element])
  | elementwiseAdd inside =>
    rw [← size] at inside
    obtain ⟨length, each⟩ := tabulate_eq_some_iff.1 run
    have made := each i i (by
      rw [length, List.length_range] at inside
      simp [inside])
    rw [Array.getElem?_eq_getElem inside] at made
    obtain ⟨sum, added, value⟩ := Option.bind_eq_some_iff.1 made
    refine .single ?_ rfl ((Array.getElem?_eq_getElem inside).trans value.symm)
    rw [Recipe.results?, added]
    rfl

end

end TensorGraph
