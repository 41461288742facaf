import Mathlib.Data.List.Forall2
import TensorGraph.Evaluation.Basic
import TensorGraph.Proofs.Operator.OutputShape

/-!
# TensorGraph.Proofs.Evaluation.Kernel

Kernels never leave their buffers.

* `index_lt`, `grid4_length`, `mem_grid4`: row-major indices and the positions that they belong to.
* `tabulate_total`: a buffer is made whenever each of its elements is.
* the lemmas that end in `_total`: each kernel gives a result of the right size for buffers of the
  right sizes.
* `compute_total`: so an operator whose shapes fit always has a result.
-/

namespace TensorGraph

namespace Kernel

variable {α β γ δ : Type}

/-- Runs over lists whose elements do the same, pair by pair. -/
theorem mapM_congr {m : Type → Type} [Monad m] [LawfulMonad m] {f : β → m δ} {k : γ → m δ}
    {xs : List β} {ys : List γ} (same : List.Forall₂ (fun x y => f x = k y) xs ys) :
    xs.mapM f = ys.mapM k := by
  induction same with
  | nil => rfl
  | cons same _ ih => rw [List.mapM_cons, List.mapM_cons, same, ih]

theorem mapM_total (f : β → Option γ) {xs : List β} (h : ∀ x ∈ xs, ∃ y, f x = some y) :
    ∃ ys, xs.mapM f = some ys ∧ ys.length = xs.length ∧
      ∀ (i : Nat) x, xs[i]? = some x → ∃ y, ys[i]? = some y ∧ f x = some y := by
  induction xs with
  | nil => exact ⟨[], rfl, rfl, fun i x hx => nomatch hx⟩
  | cons x xs ih =>
    obtain ⟨y, hy⟩ := h x List.mem_cons_self
    obtain ⟨ys, run, length, each⟩ := ih fun z hz => h z (List.mem_cons_of_mem x hz)
    refine ⟨y :: ys, by rw [List.mapM_cons, hy, run]; rfl, by simp [length], fun i z hz => ?_⟩
    cases i with
    | zero =>
      cases hz
      exact ⟨y, rfl, hy⟩
    | succ i => exact each i z hz

theorem foldlM_total (f : γ → β → Option γ) {xs : List β}
    (h : ∀ acc, ∀ x ∈ xs, ∃ y, f acc x = some y) (start : γ) :
    ∃ y, xs.foldlM f start = some y := by
  induction xs generalizing start with
  | nil => exact ⟨start, rfl⟩
  | cons x xs ih =>
    obtain ⟨y, hy⟩ := h start x List.mem_cons_self
    rw [List.foldlM_cons, hy]
    exact ih (fun acc z hz => h acc z (List.mem_cons_of_mem x hz)) y

theorem getElem?_total {x : Array α} {i : Nat} (h : i < x.size) : ∃ v, x[i]? = some v :=
  ⟨x[i], Array.getElem?_eq_getElem h⟩

/-- A row-major index in a grid. -/
theorem index_lt {i j a b : Nat} (hi : i < a) (hj : j < b) : i * b + j < a * b := by
  have : (i + 1) * b ≤ a * b := Nat.mul_le_mul_right b hi
  rw [Nat.succ_mul] at this
  omega

theorem length_flatMap_range {n m : Nat} {f : Nat → List β} (h : ∀ i, (f i).length = m) :
    ((List.range n).flatMap f).length = n * m := by
  induction n with
  | zero => simp
  | succ n ih =>
    rw [List.range_succ, List.flatMap_append, List.length_append, ih, Nat.succ_mul]
    simp [h]

theorem grid4_length (a b c d : Nat) : (grid4 a b c d).length = a * b * c * d := by
  unfold grid4
  rw [length_flatMap_range fun i => length_flatMap_range fun j => length_flatMap_range fun k =>
    (List.length_map _).trans List.length_range, ← Nat.mul_assoc, ← Nat.mul_assoc]

theorem mem_grid4 {a b c d i j k l : Nat} :
    (i, j, k, l) ∈ grid4 a b c d ↔ i < a ∧ j < b ∧ k < c ∧ l < d := by
  simp only [grid4, List.mem_flatMap, List.mem_map, List.mem_range, Prod.mk.injEq]
  constructor
  · rintro ⟨i', hi, j', hj, k', hk, l', hl, rfl, rfl, rfl, rfl⟩
    exact ⟨hi, hj, hk, hl⟩
  · rintro ⟨hi, hj, hk, hl⟩
    exact ⟨i, hi, j, hj, k, hk, l, hl, rfl, rfl, rfl, rfl⟩

theorem tabulate_total {π : Type} {positions : List π} {f : π → Option α}
    (h : ∀ p ∈ positions, ∃ v, f p = some v) :
    ∃ r, tabulate positions f = some r ∧ r.size = positions.length := by
  obtain ⟨ys, run, length, _⟩ := mapM_total f h
  exact ⟨ys.toArray, by rw [tabulate, run]; rfl, length⟩

/-- A result that is filled up to the size of the buffer it is made from. -/
theorem filled_total [Scalar α] {π : Type} {positions : List π} {f : π → Option α} {x : Array α}
    (bound : positions.length ≤ x.size) (h : ∀ p ∈ positions, ∃ v, f p = some v) :
    ∃ r, (tabulate positions f).map (filled x) = some r ∧ r.size = x.size := by
  obtain ⟨r, run, size⟩ := tabulate_total h
  refine ⟨filled x r, by rw [run]; rfl, ?_⟩
  simp only [filled, Array.size_append, Array.size_replicate]
  omega

theorem size4 (a b c d : Nat) : Shape.size [a, b, c, d] = a * b * c * d := by
  simp [Nat.mul_assoc]

theorem pixel?_lt {stride before extent o k y : Nat}
    (h : pixel? stride before extent o k = some y) : y < extent := by
  unfold pixel? at h
  simp only at h
  split at h
  · cases h
  · next inside =>
    cases h
    omega

theorem windowPixel?_lt {stride : Extent} {margins : Margins} {image : ImageShape}
    {oy ox ky kx : Nat} {pixel : Nat × Nat}
    (h : windowPixel? stride margins image oy ox ky kx = some pixel) :
    pixel.1 < image.height ∧ pixel.2 < image.width := by
  unfold windowPixel? at h
  split at h
  · next y x hy hx =>
    cases h
    exact ⟨pixel?_lt hy, pixel?_lt hx⟩
  · cases h

theorem pixel?_eq_some {stride before extent o k y : Nat}
    (h : pixel? stride before extent o k = some y) :
    before ≤ o * stride + k ∧ o * stride + k - before = y := by
  simp only [pixel?] at h
  split at h
  · cases h
  · next inside =>
    cases h
    omega

/-- A pixel lies behind the margins, on both axes. -/
theorem windowPixel?_eq_some {stride : Extent} {margins : Margins} {image : ImageShape}
    {oy ox ky kx y x : Nat}
    (h : windowPixel? stride margins image oy ox ky kx = some (y, x)) :
    (margins.top ≤ oy * stride.height + ky ∧ oy * stride.height + ky - margins.top = y) ∧
      margins.left ≤ ox * stride.width + kx ∧ ox * stride.width + kx - margins.left = x := by
  unfold windowPixel? at h
  split at h
  · next row column =>
    cases h
    exact ⟨pixel?_eq_some row, pixel?_eq_some column⟩
  · cases h

theorem offset_lt (layout : FilterLayout) {d : FilterDims} {o i y x : Nat} (ho : o < d.outputs)
    (hi : i < d.inputs) (hy : y < d.height) (hx : x < d.width) :
    layout.offset d o i y x < (layout.shape d).size := by
  cases layout with
  | oihw =>
    show ((o * d.inputs + i) * d.height + y) * d.width + x < Shape.size [_, _, _, _]
    rw [size4]
    exact index_lt (index_lt (index_lt ho hi) hy) hx
  | ohwi =>
    show ((o * d.height + y) * d.width + x) * d.inputs + i < Shape.size [_, _, _, _]
    rw [size4]
    exact index_lt (index_lt (index_lt ho hy) hx) hi

theorem mem_taps {channels : Nat} {kernel : Extent} {i ky kx : Nat}
    (h : (i, ky, kx) ∈ taps channels kernel) :
    i < channels ∧ ky < kernel.height ∧ kx < kernel.width := by
  simp only [taps, List.mem_flatMap, List.mem_map, List.mem_range, Prod.mk.injEq] at h
  obtain ⟨i', hi, ky', hky, kx', hkx, rfl, rfl, rfl⟩ := h
  exact ⟨hi, hky, hkx⟩

variable [Scalar α]

theorem biasAt_total {bias : Option (Array α)} {outputs o : Nat}
    (size : ∀ b ∈ bias, b.size = outputs) (ho : o < outputs) : ∃ v, biasAt bias o = some v := by
  cases bias with
  | none => exact ⟨Scalar.zero, rfl⟩
  | some b => exact getElem?_total (by rw [size b rfl]; exact ho)

theorem convolution_total (p : Convolution α) {image : ImageShape} {dims : FilterDims}
    (out : Extent) {x w : Array α} {bias : Option (Array α)}
    (hx : x.size = image.batch * image.channels * image.height * image.width)
    (hw : w.size = (p.layout.shape dims).size) (inputs : dims.inputs = image.channels)
    (kernel : (⟨dims.height, dims.width⟩ : Extent) = p.kernel)
    (hbias : ∀ b ∈ bias, b.size = dims.outputs) :
    ∃ r, convolution p x image w (p.layout.shape dims) bias out = some r ∧
      r.size = image.batch * dims.outputs * out.height * out.width := by
  have height : dims.height = p.kernel.height := congrArg Extent.height kernel
  have width : dims.width = p.kernel.width := congrArg Extent.width kernel
  unfold convolution
  rw [FilterLayout.dims?_shape, ← grid4_length]
  refine tabulate_total fun ⟨b, o, oy, ox⟩ hp => ?_
  obtain ⟨hb, ho, _, _⟩ := mem_grid4.1 hp
  obtain ⟨start, hstart⟩ := biasAt_total hbias ho
  have dot : ∃ v, convolutionAt p (p.margins ⟨image.height, image.width⟩) x image w dims bias b o
      oy ox = some v := by
    rw [convolutionAt, hstart]
    refine foldlM_total _ (fun acc ⟨i, ky, kx⟩ ht => ?_) start
    obtain ⟨hi, hky, hkx⟩ := mem_taps ht
    cases pixel :
      windowPixel? p.stride (p.margins ⟨image.height, image.width⟩) image oy ox ky kx with
    | none => exact ⟨acc, by simp only [pixel]⟩
    | some place =>
      obtain ⟨iy, ix⟩ := place
      obtain ⟨hiy, hix⟩ := windowPixel?_lt pixel
      have xBound : flatIndex image.channels image.height image.width (b, i, iy, ix) < x.size := by
        rw [hx]
        exact index_lt (index_lt (index_lt hb hi) hiy) hix
      have wBound : p.layout.offset dims o i ky kx < w.size := by
        rw [hw]
        exact offset_lt _ ho (inputs ▸ hi) (height ▸ hky) (width ▸ hkx)
      obtain ⟨xv, hxv⟩ := getElem?_total xBound
      obtain ⟨wv, hwv⟩ := getElem?_total wBound
      exact ⟨acc + xv * wv, by simp only [pixel, hxv, hwv]; rfl⟩
  obtain ⟨v, hv⟩ := dot
  exact ⟨Activation.applyTo p.activation v, by simp only [hv]; rfl⟩

theorem linear_total (fused : Option (Activation α)) {batch features outputs : Nat}
    {x w : Array α} {bias : Option (Array α)} (hx : x.size = batch * features)
    (hw : w.size = outputs * features) (hbias : ∀ b ∈ bias, b.size = outputs) :
    ∃ r, linear fused x batch features w outputs bias = some r ∧ r.size = batch * outputs := by
  have length : ((List.range batch).flatMap fun b =>
      (List.range outputs).map fun o => (b, o)).length = batch * outputs :=
    length_flatMap_range fun _ => (List.length_map _).trans List.length_range
  rw [← length]
  refine tabulate_total fun ⟨b, o⟩ hp => ?_
  obtain ⟨hb, ho⟩ : b < batch ∧ o < outputs := by simpa using hp
  obtain ⟨start, hstart⟩ := biasAt_total hbias ho
  have dot : ∃ v, (List.range features).foldlM (fun acc k => do
      let xv ← x[b * features + k]?
      let wv ← w[o * features + k]?
      return acc + xv * wv) start = some v := by
    refine foldlM_total _ (fun acc k hk => ?_) start
    have hk := List.mem_range.1 hk
    obtain ⟨xv, hxv⟩ := getElem?_total (x := x) (hx ▸ index_lt hb hk)
    obtain ⟨wv, hwv⟩ := getElem?_total (x := w) (hw ▸ index_lt ho hk)
    exact ⟨acc + xv * wv, by rw [hxv, hwv]; rfl⟩
  obtain ⟨v, hv⟩ := dot
  refine ⟨Activation.applyTo fused v, ?_⟩
  simp only [hstart, Option.bind_eq_bind, Option.bind_some] at hv ⊢
  rw [hv]
  rfl

omit [Scalar α] in
theorem size_pos {s : Shape} (h : 0 ∉ s) : 0 < s.size := by
  induction s with
  | nil => exact Nat.one_pos
  | cons d s ih =>
    have first : d ≠ 0 := fun e => h (e ▸ List.mem_cons_self)
    exact Nat.mul_pos (Nat.pos_of_ne_zero first) (ih fun hm => h (List.mem_cons_of_mem d hm))

omit [Scalar α] in
theorem inner_pos {s : Shape} (h : 0 ∉ s) (axis : Nat) : 0 < s.inner axis :=
  size_pos fun hm => h (List.mem_of_mem_drop hm)

omit [Scalar α] in
theorem alongAxis_total {x : Array α} {shape : Shape} {axis dim : Nat}
    (positive : 0 ∉ shape) (hdim : shape[axis]? = some dim) {f : α → Nat → Option α}
    (hf : ∀ v c, c < dim → ∃ y, f v c = some y) :
    ∃ r, alongAxis x shape axis f = some r ∧ r.size = x.size := by
  have length : x.toList.zipIdx.length = x.size := by simp
  unfold alongAxis
  rw [hdim, ← length]
  refine tabulate_total fun ⟨v, i⟩ _ => ?_
  have dim_pos : 0 < dim := Nat.pos_of_ne_zero fun e =>
    positive (e ▸ List.mem_of_getElem? hdim)
  have inner_ne : ¬(shape.inner axis = 0 ∨ dim = 0) := by
    have := inner_pos positive axis
    omega
  obtain ⟨y, hy⟩ := hf v (i / shape.inner axis % dim) (Nat.mod_lt _ dim_pos)
  exact ⟨y, by simp only [coordinate?, if_neg inner_ne]; exact hy⟩

theorem batchNormalization_total (eps : α) {shape : Shape} {channels : Nat}
    {x gamma beta mean variance : Array α} (positive : 0 ∉ shape)
    (hdim : shape[1]? = some channels) (hgamma : gamma.size = channels)
    (hbeta : beta.size = channels) (hmean : mean.size = channels)
    (hvariance : variance.size = channels) :
    ∃ r, batchNormalization eps x shape gamma beta mean variance = some r ∧ r.size = x.size := by
  refine alongAxis_total positive hdim fun v c hc => ?_
  obtain ⟨m, hm⟩ := getElem?_total (x := mean) (hmean ▸ hc)
  obtain ⟨s, hs⟩ := getElem?_total (x := variance) (hvariance ▸ hc)
  obtain ⟨g, hg⟩ := getElem?_total (x := gamma) (hgamma ▸ hc)
  obtain ⟨b, hb⟩ := getElem?_total (x := beta) (hbeta ▸ hc)
  exact ⟨(v - m) / Scalar.sqrt (s + eps) * g + b, by rw [hm, hs, hg, hb]; rfl⟩

theorem axiswiseAffine_total {axis : Nat} (fused : Option (Activation α)) {shape : Shape}
    {dim : Nat} {x scale bias : Array α} (positive : 0 ∉ shape)
    (hdim : shape[axis]? = some dim) (hscale : scale.size = dim) (hbias : bias.size = dim) :
    ∃ r, axiswiseAffine axis fused x shape scale bias = some r ∧ r.size = x.size := by
  refine alongAxis_total positive hdim fun v c hc => ?_
  obtain ⟨s, hs⟩ := getElem?_total (x := scale) (hscale ▸ hc)
  obtain ⟨b, hb⟩ := getElem?_total (x := bias) (hbias ▸ hc)
  exact ⟨Activation.applyTo fused (v * s + b), by rw [hs, hb]; rfl⟩

theorem pooling_total (p : Pooling) {image : ImageShape} (out : Extent) {x : Array α}
    (hx : x.size = image.batch * image.channels * image.height * image.width) :
    ∃ r, pooling p x image out = some r ∧
      r.size = image.batch * image.channels * out.height * out.width := by
  have length := grid4_length 1 (image.batch * image.channels) out.height out.width
  rw [Nat.one_mul] at length
  unfold pooling
  rw [← length]
  refine tabulate_total fun ⟨z, plane, oy, ox⟩ hp => ?_
  obtain ⟨_, hplane, _, _⟩ := mem_grid4.1 hp
  have values : ∃ vs, windowValues p (p.effectiveMargins ⟨image.height, image.width⟩) x image
      plane oy ox = some vs := by
    have each : ∀ pixel ∈ (windowOffsets p.kernel).filterMap fun place => windowPixel? p.stride
        (p.effectiveMargins ⟨image.height, image.width⟩) image oy ox place.1 place.2,
        ∃ v, x[(plane * image.height + pixel.1) * image.width + pixel.2]? = some v := by
      intro pixel hpixel
      obtain ⟨⟨ky, kx⟩, _, found⟩ := List.mem_filterMap.1 hpixel
      obtain ⟨hy, hx'⟩ := windowPixel?_lt found
      exact getElem?_total (hx ▸ index_lt (index_lt hplane hy) hx')
    obtain ⟨vs, run, _⟩ := mapM_total _ each
    exact ⟨vs, run⟩
  obtain ⟨vs, run⟩ := values
  refine ⟨poolWindow p vs, ?_⟩
  show (windowValues p _ x image plane oy ox).map (poolWindow p) = _
  rw [run]
  rfl

theorem responseNormalization_total (p : ResponseNormalization α) {image : ImageShape}
    {x : Array α} (hx : x.size = image.batch * image.channels * image.height * image.width) :
    ∃ r, responseNormalization p x image = some r ∧ r.size = x.size := by
  let plane := image.height * image.width
  have hx' : x.size = image.batch * image.channels * plane := by rw [hx, Nat.mul_assoc]
  have length := grid4_length 1 image.batch image.channels plane
  rw [Nat.one_mul, ← hx'] at length
  show ∃ r, (tabulate (grid4 1 image.batch image.channels plane) _).map (filled x) = some r ∧ _
  refine filled_total (Nat.le_of_eq length) fun ⟨z, b, c, i⟩ hp => ?_
  obtain ⟨_, hb, hc, hi⟩ := mem_grid4.1 hp
  have inside {j : Nat} (hj : j < image.channels) :
      ∃ v, x[(b * image.channels + j) * plane + i]? = some v :=
    getElem?_total (hx' ▸ index_lt (index_lt hb hj) hi)
  let low := c - p.size / 2
  let channels := List.range' low (min (c + p.size - p.size / 2) image.channels - low)
  have each : ∀ acc, ∀ j ∈ channels, ∃ y, (do
      let v ← x[(b * image.channels + j) * plane + i]?
      return acc + v * v) = some y := by
    intro acc j hj
    have := List.mem_range'_1.1 hj
    obtain ⟨v, hv⟩ := inside (j := j) (by omega)
    exact ⟨acc + v * v, by rw [hv]; rfl⟩
  obtain ⟨squares, hsquares⟩ := foldlM_total _ each Scalar.zero
  obtain ⟨v, hv⟩ := inside hc
  refine ⟨v / Scalar.pow (p.k + p.alpha * squares) p.beta, ?_⟩
  simp only [channels, low, plane] at hsquares hv
  simp only [hsquares, hv]
  rfl

theorem elementwiseAdd_total (fused : Option (Activation α)) {n : Nat} {operands : List (Array α)}
    (some_operand : operands ≠ []) (sizes : ∀ x ∈ operands, x.size = n) :
    ∃ r, elementwiseAdd fused operands = some r ∧ r.size = n := by
  obtain ⟨x, rest, rfl⟩ := List.exists_cons_of_ne_nil some_operand
  have first : x.size = n := sizes x List.mem_cons_self
  have length : (List.range x.size).length = n := by rw [List.length_range, first]
  unfold elementwiseAdd
  rw [← length]
  refine tabulate_total fun i hi => ?_
  have hi := List.mem_range.1 hi
  have each : ∀ acc, ∀ y ∈ x :: rest, ∃ z, (do return acc + (← y[i]?)) = some z := by
    intro acc y hy
    obtain ⟨v, hv⟩ := getElem?_total (x := y) (i := i) (by rw [sizes y hy, ← first]; exact hi)
    exact ⟨acc + v, by rw [hv]; rfl⟩
  obtain ⟨sum, hsum⟩ := foldlM_total _ each Scalar.emptySum
  exact ⟨Activation.applyTo fused sum, by rw [hsum]; rfl⟩

theorem softmaxRows_total {x : Array α} {outer dim inner : Nat}
    (bound : outer * dim * inner ≤ x.size) : ∃ rows, softmaxRows x outer dim inner = some rows ∧
      rows.length = outer * inner ∧ ∀ row ∈ rows, row.length = dim := by
  let places := (List.range outer).flatMap fun o => (List.range inner).map fun i => (o, i)
  let line (place : Nat × Nat) : Option (List α) :=
    ((List.range dim).mapM fun d => x[(place.1 * dim + d) * inner + place.2]?).map softmaxRow
  have inside {place : Nat × Nat} (h : place ∈ places) : place.1 < outer ∧ place.2 < inner := by
    obtain ⟨o, i⟩ := place
    simpa [places] using h
  have total : ∀ place ∈ places, ∃ row, line place = some row ∧ row.length = dim := by
    intro place hp
    obtain ⟨ho, hi⟩ := inside hp
    have each : ∀ d ∈ List.range dim, ∃ y, x[(place.1 * dim + d) * inner + place.2]? = some y :=
      fun d hd => getElem?_total
        (Nat.lt_of_lt_of_le (index_lt (index_lt ho (List.mem_range.1 hd)) hi) bound)
    obtain ⟨vs, run, length, _⟩ := mapM_total _ each
    refine ⟨softmaxRow vs, by simp only [line, run]; rfl, ?_⟩
    simpa [softmaxRow] using length
  have count : places.length = outer * inner :=
    length_flatMap_range fun _ => (List.length_map _).trans List.length_range
  obtain ⟨rows, run, length, each⟩ := mapM_total line fun place hp => by
    obtain ⟨row, made, _⟩ := total place hp
    exact ⟨row, made⟩
  refine ⟨rows, run, length.trans count, fun row hrow => ?_⟩
  obtain ⟨k, hk⟩ := List.mem_iff_getElem?.1 hrow
  have hk' := (List.getElem?_eq_some_iff.1 hk).1
  have hp : places[k]? = some places[k] := List.getElem?_eq_getElem (length ▸ hk')
  obtain ⟨row', hrow', made⟩ := each k _ hp
  cases hk.symm.trans hrow'
  obtain ⟨row', made', size⟩ := total _ (List.mem_of_getElem? hp)
  cases made.symm.trans made'
  exact size

theorem softmax_total {axis dim : Nat} {shape : Shape} {x : Array α} (positive : 0 ∉ shape)
    (hdim : shape[axis]? = some dim) : ∃ r, softmax axis x shape = some r ∧ r.size = x.size := by
  let inner := shape.inner axis
  let outer := x.size / (dim * inner)
  have dim_pos : 0 < dim := Nat.pos_of_ne_zero fun e =>
    positive (e ▸ List.mem_of_getElem? hdim)
  have block_ne : dim * inner ≠ 0 := Nat.ne_of_gt (Nat.mul_pos dim_pos (inner_pos positive axis))
  have bound : outer * dim * inner ≤ x.size := by
    rw [Nat.mul_assoc]
    exact Nat.div_mul_le_self _ _
  obtain ⟨rows, run, length, widths⟩ := softmaxRows_total bound
  have fits : (grid4 1 outer dim inner).length ≤ x.size := by
    rw [grid4_length, Nat.one_mul]
    exact bound
  unfold softmax
  rw [hdim, Option.bind_eq_bind, Option.bind_some]
  simp only [inner, outer] at block_ne run
  simp only [if_neg block_ne]
  rw [run, Option.bind_eq_bind, Option.bind_some]
  rw [bind_pure_comp, Option.map_eq_map]
  refine filled_total fits fun ⟨z, o, d, i⟩ hp => ?_
  obtain ⟨_, ho, hd, hi⟩ := mem_grid4.1 hp
  have place : o * inner + i < rows.length := length ▸ index_lt ho hi
  have hd' : d < rows[o * inner + i].length := by
    rw [widths _ (List.getElem_mem place)]
    exact hd
  refine ⟨rows[o * inner + i][d], ?_⟩
  show (rows[o * inner + i]? >>= fun row => row[d]?) = _
  rw [List.getElem?_eq_getElem place, Option.bind_eq_bind, Option.bind_some,
    List.getElem?_eq_getElem hd']

theorem reorderFilter_total {dims : FilterDims} {w : Array α}
    (hw : w.size = (FilterLayout.oihw.shape dims).size) :
    ∃ r, reorderFilter w dims = some r ∧ r.size = (FilterLayout.ohwi.shape dims).size := by
  have size : w.size = dims.outputs * dims.inputs * dims.height * dims.width :=
    hw.trans (size4 _ _ _ _)
  have same : dims.outputs * dims.height * dims.width * dims.inputs =
      dims.outputs * dims.inputs * dims.height * dims.width := by
    rw [Nat.mul_right_comm, Nat.mul_right_comm dims.outputs]
  have ohwi : (FilterLayout.ohwi.shape dims).size = w.size := by
    rw [size, ← same]
    exact size4 _ _ _ _
  have length : (grid4 dims.outputs dims.height dims.width dims.inputs).length = w.size := by
    rw [grid4_length, same, size]
  rw [ohwi]
  refine filled_total (Nat.le_of_eq length) fun ⟨o, y, x, i⟩ hp => ?_
  obtain ⟨ho, hy, hx, hi⟩ := mem_grid4.1 hp
  exact getElem?_total (hw ▸ offset_lt .oihw ho hi hy hx)

end Kernel

/-! ## Parts of shapes -/

namespace Shape

variable {s : Shape}

theorem size_drop_le (positive : 0 ∉ s) (n : Nat) : size (s.drop n) ≤ s.size := by
  induction s generalizing n with
  | nil => exact Nat.le_of_eq (congrArg size List.drop_nil)
  | cons d s ih =>
    obtain ⟨here, rest⟩ := not_or.1 (List.mem_cons.not.1 positive)
    cases n with
    | zero => exact Nat.le_refl _
    | succ n => exact Nat.le_trans (ih rest n) (Nat.le_mul_of_pos_left _ (by omega))

theorem size_take_le (positive : 0 ∉ s) (n : Nat) :
    size (s.take n) ≤ s.size := by
  induction s generalizing n with
  | nil => exact Nat.le_of_eq (congrArg size List.take_nil)
  | cons d s ih =>
    obtain ⟨first, rest⟩ := not_or.1 (mt List.mem_cons.2 positive)
    cases n with
    | zero => exact Kernel.size_pos positive
    | succ n => exact Nat.mul_le_mul_left d (ih rest n)

end Shape

open Kernel

/-- The operands of a convolution or a linear operator, by the shapes of its own operands. -/
theorem weighted_operands {α : Type} {xs ws : Shape} {bias : Option Shape} {outputs : Nat}
    (vector : ∀ b ∈ bias, b = [outputs]) {operands : List (Array α)}
    (sizes : operands.map Array.size = (xs :: ws :: bias.toList).map Shape.size) :
    ∃ x w rest, operands = x :: w :: rest ∧ x.size = xs.size ∧ w.size = ws.size ∧
      ∀ b ∈ rest.head?, b.size = outputs := by
  obtain ⟨x, others, rfl, hx, hothers⟩ := List.map_eq_cons_iff.1 sizes
  obtain ⟨w, rest, rfl, hw, hrest⟩ := List.map_eq_cons_iff.1 hothers
  refine ⟨x, w, rest, rfl, hx, hw, fun b hb => ?_⟩
  cases bias with
  | none =>
    rw [Option.toList_none, List.map_nil, List.map_eq_nil_iff] at hrest
    rw [hrest] at hb
    cases hb
  | some s =>
    obtain ⟨b', none_left, rfl, hb', _⟩ := List.map_eq_cons_iff.1 hrest
    cases hb
    rw [hb', vector s rfl]
    exact Nat.mul_one _

theorem three_operands {α : Type} {a b c : Nat} {operands : List (Array α)}
    (sizes : operands.map Array.size = [a, b, c]) :
    ∃ x y z, operands = [x, y, z] ∧ x.size = a ∧ y.size = b ∧ z.size = c := by
  obtain ⟨x, _, rfl, hx, sizes⟩ := List.map_eq_cons_iff.1 sizes
  obtain ⟨y, _, rfl, hy, sizes⟩ := List.map_eq_cons_iff.1 sizes
  obtain ⟨z, _, rfl, hz, sizes⟩ := List.map_eq_cons_iff.1 sizes
  rw [List.map_eq_nil_iff] at sizes
  exact ⟨x, y, z, by rw [sizes], hx, hy, hz⟩

/-- Shapes that pass the rule of a kind, the shape of the result, and operands of these shapes. -/
inductive OperatorKind.Fitting {α : Type} :
    OperatorKind α → List Shape → Shape → List (Array α) → Prop
  | convolution {p : Convolution α} {image : ImageShape} {dims : FilterDims} {out : Extent}
      {others : List Shape} {x w : Array α} {rest : List (Array α)}
      (hx : x.size = image.toShape.size) (hw : w.size = (p.layout.shape dims).size)
      (hbias : ∀ b ∈ rest.head?, b.size = dims.outputs) (inputs : dims.inputs = image.channels)
      (kernel : (⟨dims.height, dims.width⟩ : Extent) = p.kernel)
      (window : windowExtent image.extent p.kernel p.stride
        (fun _ => p.margins image.extent) = .ok out) :
      Fitting (.convolution p) (image.toShape :: p.layout.shape dims :: others)
        [image.batch, dims.outputs, out.height, out.width] (x :: w :: rest)
  | linear {fused : Option (Activation α)} {batch outputs : Nat} {features : Shape}
      {others : List Shape} {x w : Array α} {rest : List (Array α)}
      (hx : x.size = batch * features.size) (hw : w.size = outputs * features.size)
      (hbias : ∀ b ∈ rest.head?, b.size = outputs) :
      Fitting (.linear fused) ((batch :: features) :: [outputs, features.size] :: others)
        [batch, outputs] (x :: w :: rest)
  | activation {a : Activation α} {s : Shape} {x : Array α} (hx : x.size = s.size) :
      Fitting (.activation a) [s] s [x]
  | batchNormalization {eps : α} {s : Shape} {channels : Nat} {others : List Shape}
      {x gamma beta mean variance : Array α} (hdim : s[1]? = some channels) (hx : x.size = s.size)
      (hgamma : gamma.size = channels) (hbeta : beta.size = channels)
      (hmean : mean.size = channels) (hvariance : variance.size = channels) :
      Fitting (.batchNormalization eps) (s :: others) s [x, gamma, beta, mean, variance]
  | pooling {p : Pooling} {image : ImageShape} {out : Extent} {x : Array α}
      (hx : x.size = image.toShape.size)
      (window : windowExtent image.extent p.kernel p.stride
        (fun _ => p.effectiveMargins image.extent) = .ok out) :
      Fitting (.pooling p) [image.toShape]
        [image.batch, image.channels, out.height, out.width] [x]
  | responseNormalization {p : ResponseNormalization α} {image : ImageShape} {x : Array α}
      (hx : x.size = image.toShape.size) :
      Fitting (.responseNormalization p) [image.toShape] image.toShape [x]
  | reshape {shape s : Shape} {x : Array α} (hx : x.size = shape.size) :
      Fitting (.reshape shape) [s] shape [x]
  | elementwiseAdd {fused : Option (Activation α)} {shapes : List Shape} {s : Shape}
      {operands : List (Array α)} (some_operand : operands ≠ [])
      (sizes : ∀ x ∈ operands, x.size = s.size) :
      Fitting (.elementwiseAdd fused) shapes s operands
  | scalarAffine {scale bias : α} {s : Shape} {x : Array α} (hx : x.size = s.size) :
      Fitting (.scalarAffine scale bias) [s] s [x]
  | axiswiseAffine {axis : Nat} {fused : Option (Activation α)} {s : Shape} {dim : Nat}
      {others : List Shape} {x scale bias : Array α} (hdim : s[axis]? = some dim)
      (hx : x.size = s.size) (hscale : scale.size = dim) (hbias : bias.size = dim) :
      Fitting (.axiswiseAffine axis fused) (s :: others) s [x, scale, bias]
  | softmax {axis : Nat} {s : Shape} {x : Array α} (inside : axis < s.length)
      (hx : x.size = s.size) :
      Fitting (.softmax axis) [s] s [x]

theorem OperatorKind.fitting_of_sizes {α : Type} [Scalar α] {kind : OperatorKind α}
    {shapes : List Shape} {out : Shape} (typed : kind.outputShape shapes = .ok out)
    {operands : List (Array α)} (sizes : operands.map Array.size = shapes.map Shape.size) :
    kind.Fitting shapes out operands := by
  have unary {rule : Shape → ShapeCheck Shape} (h : unaryShape shapes rule = .ok out) :
      ∃ s x, shapes = [s] ∧ operands = [x] ∧ x.size = s.size ∧ rule s = .ok out := by
    obtain ⟨s, rfl, hs⟩ := unaryShape_ok_iff.1 h
    obtain ⟨x, rest, rfl, hx, hrest⟩ := List.map_eq_cons_iff.1 sizes
    rw [List.map_nil, List.map_eq_nil_iff] at hrest
    exact ⟨s, x, rfl, by rw [hrest], hx, hs⟩
  cases kind with
  | convolution p =>
    obtain ⟨xs, ws, bias, rfl, result⟩ := convolutionShape_ok_iff.1 typed
    obtain ⟨image, dims, extent, rfl, rfl, vector, inputs, kernel, window, rfl⟩ :=
      convolutionResult_ok_iff.1 result
    obtain ⟨x, w, rest, rfl, hx, hw, hbias⟩ := weighted_operands vector sizes
    exact .convolution hx hw hbias inputs kernel window
  | linear fused =>
    obtain ⟨xs, ws, bias, rfl, result⟩ := linearShape_ok_iff.1 typed
    obtain ⟨batch, features, outputs, rfl, _, rfl, vector, rfl⟩ := linearResult_ok_iff.1 result
    obtain ⟨x, w, rest, rfl, hx, hw, hbias⟩ := weighted_operands vector sizes
    exact .linear hx (hw.trans (by simp)) hbias
  | activation a =>
    obtain ⟨s, x, rfl, rfl, size, e⟩ := unary typed
    cases e
    exact .activation size
  | batchNormalization eps =>
    obtain ⟨_, channels, hdim, rfl⟩ := batchNormalizationShape_ok_iff.1 typed
    obtain ⟨x, _, rfl, hx, sizes⟩ := List.map_eq_cons_iff.1 sizes
    obtain ⟨gamma, _, rfl, hgamma, sizes⟩ := List.map_eq_cons_iff.1 sizes
    obtain ⟨beta, mean, variance, rfl, hbeta, hmean, hvariance⟩ := three_operands sizes
    exact .batchNormalization hdim hx (hgamma.trans (Nat.mul_one _)) (hbeta.trans (Nat.mul_one _))
      (hmean.trans (Nat.mul_one _)) (hvariance.trans (Nat.mul_one _))
  | pooling p =>
    obtain ⟨image, extent, rfl, window, rfl⟩ := poolingShape_ok_iff.1 typed
    obtain ⟨x, rest, rfl, hx, hrest⟩ := List.map_eq_cons_iff.1 sizes
    rw [List.map_nil, List.map_eq_nil_iff] at hrest
    rw [hrest]
    exact .pooling hx window
  | responseNormalization p =>
    obtain ⟨s, x, rfl, rfl, size, result⟩ := unary typed
    obtain ⟨image, himage, result⟩ := Graph.except_bind_ok_iff.1 result
    obtain ⟨_, e⟩ := require_bind_ok_iff.1 result
    cases e
    obtain rfl := ofShape?_eq_some.1 (checkImage_ok_iff.1 himage)
    exact .responseNormalization size
  | reshape shape =>
    obtain ⟨s, x, rfl, rfl, size, result⟩ := unary typed
    obtain ⟨fits, e⟩ := require_bind_ok_iff.1 result
    cases e
    exact .reshape (size.trans (by simpa using fits))
  | elementwiseAdd fused =>
    obtain ⟨length, same⟩ := elementwiseAddShape_ok_iff.1 typed
    have count : operands.length = shapes.length := by
      simpa using congrArg List.length sizes
    refine .elementwiseAdd (fun e => by rw [e, List.length_nil] at count; omega) fun x hx => ?_
    have : x.size ∈ shapes.map Shape.size := sizes ▸ List.mem_map_of_mem hx
    obtain ⟨s, hs, e⟩ := List.mem_map.1 this
    rw [← e, same s hs]
  | scalarAffine scale bias =>
    obtain ⟨s, x, rfl, rfl, size, e⟩ := unary typed
    cases e
    exact .scalarAffine size
  | axiswiseAffine axis fused =>
    obtain ⟨dim, hdim, rfl⟩ := axiswiseAffineShape_ok_iff.1 typed
    obtain ⟨x, scale, bias, rfl, hx, hscale, hbias⟩ := three_operands sizes
    exact .axiswiseAffine hdim hx (hscale.trans (Nat.mul_one _)) (hbias.trans (Nat.mul_one _))
  | softmax axis =>
    obtain ⟨s, x, rfl, rfl, size, result⟩ := unary typed
    obtain ⟨inside, e⟩ := require_bind_ok_iff.1 result
    cases e
    exact .softmax (by simpa using inside) size

/-- An operator whose shapes fit has a result, and the result has the shape that the rule says. -/
theorem compute_total {α : Type} [Scalar α] {kind : OperatorKind α} {shapes : List Shape}
    {out : Shape} (typed : kind.outputShape shapes = .ok out) (positive : ∀ s ∈ shapes, 0 ∉ s)
    {operands : List (Array α)}
    (sizes : operands.map Array.size = shapes.map Shape.size) :
    ∃ r, kind.compute shapes out operands = some r ∧ r.size = out.size := by
  cases OperatorKind.fitting_of_sizes typed sizes with
  | convolution hx hw hbias inputs kernel window =>
    obtain ⟨r, run, size⟩ := convolution_total _ _ (hx.trans (size4 _ _ _ _)) hw inputs kernel
      hbias
    exact ⟨r, run, size.trans (size4 _ _ _ _).symm⟩
  | linear hx hw hbias =>
    obtain ⟨r, run, size⟩ := linear_total _ hx hw hbias
    exact ⟨r, run, size.trans (by simp)⟩
  | activation hx => exact ⟨_, rfl, by simp [pointwise, hx]⟩
  | batchNormalization hdim hx hgamma hbeta hmean hvariance =>
    obtain ⟨r, run, size⟩ := batchNormalization_total _ (positive _ List.mem_cons_self) hdim
      hgamma hbeta hmean hvariance
    exact ⟨r, run, size.trans hx⟩
  | pooling hx window =>
    obtain ⟨r, run, size⟩ := pooling_total _ _ (hx.trans (size4 _ _ _ _))
    exact ⟨r, run, size.trans (size4 _ _ _ _).symm⟩
  | responseNormalization hx =>
    obtain ⟨r, run, same⟩ := responseNormalization_total _ (hx.trans (size4 _ _ _ _))
    exact ⟨r, run, same.trans hx⟩
  | reshape hx => exact ⟨_, rfl, hx⟩
  | elementwiseAdd some_operand sizes =>
    obtain ⟨r, run, size⟩ := elementwiseAdd_total _ some_operand sizes
    exact ⟨r, run, size⟩
  | scalarAffine hx => exact ⟨_, rfl, by simp [scalarAffine, hx]⟩
  | axiswiseAffine hdim hx hscale hbias =>
    obtain ⟨r, run, size⟩ := axiswiseAffine_total _ (positive _ List.mem_cons_self) hdim hscale
      hbias
    exact ⟨r, run, size.trans hx⟩
  | @softmax axis _ x inside hx =>
    obtain ⟨r, run, same⟩ := softmax_total (x := x) (positive out List.mem_cons_self)
      (List.getElem?_eq_getElem inside)
    exact ⟨r, run, same.trans hx⟩

end TensorGraph
