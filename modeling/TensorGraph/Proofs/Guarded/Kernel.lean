import TensorGraph.Guarded.Kernel
import TensorGraph.Proofs.Guarded.Window

/-!
# TensorGraph.Proofs.Guarded.Kernel

The kernels with all their steps guarded, beside the exact ones.

* `OperatorKind.Indexable`: where the numbers of a kernel fit a word.
* the lemmas that end in `_follows`: a guarded kernel gives what the kernel itself gives, for
  buffers of the right sizes. None of its steps is at fault then but for numbers that are too large.
-/

namespace TensorGraph

/-- The numbers on the way to the pixels of `size` elements fit a word: the margins are taken off an
index last. -/
def Margins.Indexable (m : Margins) (size : Nat) : Prop :=
  size + m.top < Guarded.wordLimit ∧ size + m.left < Guarded.wordLimit

instance (m : Margins) (size : Nat) : Decidable (m.Indexable size) :=
  inferInstanceAs (Decidable (_ ∧ _))

/-- The numbers that the kernel of a kind takes fit a word, as far as the sizes of its buffers do
not see to it. -/
def OperatorKind.Indexable {α : Type} (kind : OperatorKind α) (shapes : List Shape) : Prop :=
  match kind with
  | .convolution p => ∀ image ∈ shapes.head?.bind ImageShape.ofShape?,
      (p.margins image.extent).Indexable image.toShape.size
  | .pooling p => (∀ image ∈ shapes.head?.bind ImageShape.ofShape?,
        (p.effectiveMargins image.extent).Indexable image.toShape.size) ∧
      (p.mode = .average → p.kernel.height * p.kernel.width < Guarded.wordLimit)
  | .responseNormalization p => ∀ image ∈ shapes.head?.bind ImageShape.ofShape?,
      image.channels + p.size < Guarded.wordLimit
  | .axiswiseAffine axis _ => axis + 1 < Guarded.wordLimit
  | .softmax axis => axis + 1 < Guarded.wordLimit
  | _ => True

instance {α : Type} (kind : OperatorKind α) (shapes : List Shape) :
    Decidable (kind.Indexable shapes) :=
  match kind with
  | .convolution _ => inferInstanceAs (Decidable (∀ image ∈ Option.bind _ _, _))
  | .pooling _ => inferInstanceAs (Decidable ((∀ image ∈ Option.bind _ _, _) ∧ (_ → _)))
  | .responseNormalization _ => inferInstanceAs (Decidable (∀ image ∈ Option.bind _ _, _))
  | .axiswiseAffine _ _ => inferInstanceAs (Decidable (_ < _))
  | .softmax _ => inferInstanceAs (Decidable (_ < _))
  | .linear _ | .activation _ | .batchNormalization _ | .reshape _ | .elementwiseAdd _
  | .scalarAffine _ _ => .isTrue ⟨⟩

namespace Guarded

open Kernel (Buffer tabulate grid4_length index_lt inner_pos place_unique softmax_row
  windowPixel?_eq_some)

variable {α γ : Type} [Scalar α] {free : Prop}

/-! ## Places -/

omit [Scalar α] in
/-- A row or a column of an image, from one that is counted from the edge of the margins. -/
theorem placed_follows {block size margin position pixel : Nat}
    (behind : margin ≤ position ∧ position - margin = pixel)
    (fits : free → block * size + position < wordLimit) {k : Nat → Guarded γ} {m : Option γ}
    (next : Follows free (k (block * size + pixel)) m) :
    Follows free (flat block size position >>= fun place => minus place margin >>= k) m := by
  refine .step (flat_agrees fits) ?_
  rw [Graph.except_bind_ok (minus_margin _ behind)]
  exact next

theorem window_fits {input kernel stride out : Extent} {margins : Unit → Margins}
    (window : TensorGraph.windowExtent input kernel stride margins = .ok out)
    (around : free → (margins ⟨⟩).Measurable input) {oy ox : Nat} (hy : oy < out.height)
    (hx : ox < out.width) :
    (free → oy * stride.height + kernel.height ≤ wordLimit) ∧
      (free → ox * stride.width + kernel.width ≤ wordLimit) := by
  obtain ⟨_, ⟨tall, wide⟩, rfl⟩ := windowExtent_ok_iff.1 window
  exact ⟨fun h => Nat.le_of_lt (Nat.lt_of_le_of_lt (window_le tall hy) (around h).1),
    fun h => Nat.le_of_lt (Nat.lt_of_le_of_lt (window_le wide hx) (around h).2)⟩

/-! ## Dot products -/

theorem biasAt_follows (bias : Option (Buffer α)) (o : Nat) :
    Follows free (biasAt bias o) (Kernel.biasAt bias o) := by
  cases bias with
  | none => exact .pure Scalar.zero
  | some b => exact .read b o

theorem filterOffset_agrees (layout : FilterLayout) {d : FilterDims} {o i y x : Nat}
    (hi : i < d.inputs) (hy : y < d.height) (hx : x < d.width)
    (fits : free → layout.offset d o i y x < wordLimit) :
    Agrees free (filterOffset layout d o i y x) (.ok (layout.offset d o i y x)) := by
  cases layout with
  | oihw => exact cell_agrees (Nat.zero_lt_of_lt hy) (Nat.zero_lt_of_lt hx) fits
  | ohwi => exact cell_agrees (Nat.zero_lt_of_lt hx) (Nat.zero_lt_of_lt hi) fits

omit [Scalar α] in
theorem mem_windowOffsets {kernel : Extent} {offset : Nat × Nat}
    (h : offset ∈ Kernel.windowOffsets kernel) :
    offset.1 < kernel.height ∧ offset.2 < kernel.width := by
  obtain ⟨ky, kx⟩ := offset
  simpa [Kernel.windowOffsets] using h

omit [Scalar α] in
theorem foldlM_taps {σ : Type} {channels : Nat} {kernel : Extent}
    (f : σ → Nat × Nat × Nat → Option σ) (start : σ) :
    (Kernel.taps channels kernel).foldlM f start =
      (List.range channels).foldlM (fun s i =>
        (Kernel.windowOffsets kernel).foldlM (fun s p => f s (i, p.1, p.2)) s) start := by
  simp only [Kernel.taps, Kernel.windowOffsets, foldlM_flatMap, List.foldlM_map]

theorem convolutionAt_follows {p : Convolution α} {margins : Margins} {x : Buffer α}
    {image : ImageShape} {w : Buffer α} {dims : FilterDims} (bias : Option (Buffer α))
    (inputs : dims.inputs = image.channels)
    (kernel : (⟨dims.height, dims.width⟩ : Extent) = p.kernel) (b o : Nat) {oy ox : Nat}
    (rows : free → oy * p.stride.height + p.kernel.height ≤ wordLimit)
    (columns : free → ox * p.stride.width + p.kernel.width ≤ wordLimit)
    (indices : free → margins.Indexable x.size) (weights : free → w.size < wordLimit) :
    Follows free (convolutionAt p margins x image w dims bias b o oy ox)
      (Kernel.convolutionAt p margins x image w dims bias b o oy ox >>= fun v =>
        some (Activation.applyTo p.activation v)) := by
  have height : dims.height = p.kernel.height := congrArg Extent.height kernel
  have width : dims.width = p.kernel.width := congrArg Extent.width kernel
  rw [convolutionAt, Kernel.convolutionAt, bind_assoc]
  refine .bind (biasAt_follows bias o) fun start => ?_
  refine .bind ?_ fun sum => .pure _
  rw [foldlM_taps]
  refine .foldlM (fun acc i hi => ?_) start
  refine .of_agrees (overWindow_agrees rows columns) ?_
  refine .foldlM (fun acc offset inside => ?_) acc
  obtain ⟨hky, hkx⟩ := mem_windowOffsets inside
  cases pixel : Kernel.windowPixel? p.stride margins image oy ox offset.1 offset.2 with
  | none =>
    simp only [pixel]
    exact .pure acc
  | some place =>
    obtain ⟨y, z⟩ := place
    obtain ⟨row, column⟩ := windowPixel?_eq_some pixel
    obtain ⟨hy, hz⟩ := Kernel.windowPixel?_lt pixel
    simp only [pixel]
    refine .found fun xv hxv => .found fun wv hwv => ?_
    have here : ((b * image.channels + i) * image.height + y) * image.width + z < x.size :=
      (Array.getElem?_eq_some_iff.1 hxv).1
    have there := (Array.getElem?_eq_some_iff.1 hwv).1
    have found : read x (((b * image.channels + i) * image.height + y) * image.width + z) =
        .ok xv := read_ok hxv
    have line := block_le ((b * image.channels + i) * image.height + y) z
      (Nat.zero_lt_of_lt hz)
    have plane := block_le (b * image.channels + i) y (Nat.zero_lt_of_lt hy)
    refine .step (flat_agrees fun h => ?_) (placed_follows row (fun h => ?_)
      (placed_follows column (fun h => ?_) ?_))
    · have := (indices h).1
      omega
    · have := (indices h).1
      omega
    · have := (indices h).2
      omega
    · rw [Graph.except_bind_ok found]
      refine .step (filterOffset_agrees p.layout (inputs ▸ List.mem_range.1 hi)
        (height ▸ hky) (width ▸ hkx)
        fun h => Nat.lt_trans there (weights h)) ?_
      rw [Graph.except_bind_ok (read_ok hwv)]
      exact .pure _

theorem convolution_follows {p : Convolution α} {x : Buffer α} {image : ImageShape}
    {w : Buffer α} {dims : FilterDims} (bias : Option (Buffer α)) {out : Extent}
    (positive : 0 ∉ image.toShape) (result : 0 ∉ [image.batch, dims.outputs, out.height, out.width])
    (inputs : dims.inputs = image.channels)
    (kernel : (⟨dims.height, dims.width⟩ : Extent) = p.kernel)
    (window : TensorGraph.windowExtent image.extent p.kernel p.stride
      (fun _ => p.margins image.extent) = .ok out)
    (around : free → (p.margins image.extent).Measurable image.extent)
    (indices : free → (p.margins image.extent).Indexable x.size)
    (weights : free → w.size < wordLimit)
    (room : free → image.batch * dims.outputs * out.height * out.width < bufferLimit) :
    Follows free (convolution p x image w (p.layout.shape dims) bias out)
      (Kernel.convolution p x image w (p.layout.shape dims) bias out) := by
  obtain ⟨⟨_, rows, columns⟩, _, _⟩ := windowExtent_ok_iff.1 window
  unfold convolution Kernel.convolution
  rw [FilterLayout.dims?_shape]
  refine .step (resolve_agrees p.padding (fun _ => image_positive positive) rows columns around) ?_
  have size := Kernel.size4 image.batch dims.outputs out.height out.width
  refine .step (count_agrees fun h => (Shape.countable_iff result).2 ?_) ?_
  · rw [size]
    exact fits_word (room h)
  rw [size]
  refine .step (zeros_agrees room) ?_
  refine fill_grid4 (fun b _ o _ oy hy ox hx => ?_) (fun b _ o _ oy hy ox hx bound => ?_) rfl
  · obtain ⟨tall, wide⟩ := window_fits window around hy hx
    exact convolutionAt_follows bias inputs kernel b o tall wide indices weights
  · exact cell_agrees (Nat.zero_lt_of_lt hy) (Nat.zero_lt_of_lt hx)
      fun h => Nat.lt_trans bound (fits_word (room h))

omit [Scalar α] in
theorem toList_extract_succ {x : Buffer α} {i n : Nat} (h : i + n < x.size) :
    (x.extract i (i + (n + 1))).toList = (x.extract i (i + n)).toList ++ [x[i + n]] := by
  simp only [Array.toList_extract, List.extract_eq_take_drop]
  rw [Nat.add_sub_cancel_left, Nat.add_sub_cancel_left, List.take_add_one]
  simp [h]

/-- The products of two rows, element by element and slice by slice. -/
theorem dot_slices {x w : Buffer α} {i j n : Nat} (hx : i + n ≤ x.size) (hw : j + n ≤ w.size)
    (start : α) :
    (List.range n).foldlM (fun acc k => do
        let xv ← x[i + k]?
        let wv ← w[j + k]?
        return acc + xv * wv) start =
      some (((x.extract i (i + n)).toList.zip (w.extract j (j + n)).toList).foldl
        (fun acc (xv, wv) => acc + xv * wv) start) := by
  induction n with
  | zero => simp
  | succ n ih =>
    have hx' : i + n < x.size := by omega
    have hw' : j + n < w.size := by omega
    have same : (x.extract i (i + n)).toList.length = (w.extract j (j + n)).toList.length := by
      simp only [Array.length_toList, Array.size_extract]
      omega
    rw [List.range_succ, List.foldlM_append, ih (by omega) (by omega), toList_extract_succ hx',
      toList_extract_succ hw', List.zip_append same, List.foldl_append]
    simp [hx', hw']

omit [Scalar α] in
/-- A row of a buffer that is as long as some rows. -/
theorem row_inside {x : Buffer α} {n width i : Nat} (size : x.size = n * width) (hi : i < n) :
    i * width + width ≤ x.size := by
  rw [size, ← Nat.succ_mul]
  exact Nat.mul_le_mul_right width hi

omit [Scalar α] in
theorem row_agrees {x : Buffer α} {n width i : Nat} (size : x.size = n * width) (hi : i < n)
    (positive : 0 < width) (fits : free → x.size < wordLimit) {k : Buffer α → Guarded γ}
    {r : Guarded γ}
    (next : Agrees free (k (x.extract (i * width) (i * width + width))) r) :
    Agrees free (do k (← slice x (← times i width) (← times (← plus i 1) width))) r := by
  have inside := row_inside size hi
  have after : (i + 1) * width ≤ x.size := by rwa [Nat.succ_mul]
  have number : i + 1 ≤ (i + 1) * width := Nat.le_mul_of_pos_right _ positive
  refine (times_agrees fun h => ?_).step ((plus_agrees fun h => ?_).step
    ((times_agrees fun h => Nat.lt_of_le_of_lt after (fits h)).step ?_))
  · have := fits h
    omega
  · have := fits h
    omega
  · rw [Nat.succ_mul, Graph.except_bind_ok (slice_ok (Nat.le_add_right _ _) inside)]
    exact next

theorem linear_follows (fused : Option (Activation α)) {batch features outputs : Nat}
    {x w : Buffer α} (bias : Option (Buffer α)) (positive : 0 < features)
    (hx : x.size = batch * features) (hw : w.size = outputs * features)
    (image : free → x.size < wordLimit) (weights : free → w.size < wordLimit)
    (room : free → batch * outputs < bufferLimit) :
    Follows free (linear fused x batch features w outputs bias)
      (Kernel.linear fused x batch features w outputs bias) := by
  let row (b : Nat) := x.extract (b * features) (b * features + features)
  refine .step (times_agrees fun h => fits_word (room h)) (.step (zeros_agrees room) ?_)
  have sliced : Agrees free
      (loop batch (Array.replicate (batch * outputs) Scalar.zero) fun r b => do
        let row ← slice x (← times b features) (← times (← plus b 1) features)
        loop outputs r fun r o => do
          let v ← linearAt fused row features w bias o
          write r (← flat b outputs o) v)
      (loop batch (Array.replicate (batch * outputs) Scalar.zero) fun r b =>
        loop outputs r fun r o => do
          let v ← linearAt fused (row b) features w bias o
          write r (← flat b outputs o) v) :=
    .loop (fun r b hb => row_agrees hx hb positive image (.refl _)) _
  refine .of_agrees sliced (fill_pairs (fun b hb o ho => ?_) fun b _ o _ bound =>
    flat_agrees fun h => Nat.lt_trans bound (fits_word (room h)))
  refine .of_agrees (row_agrees hw ho positive weights (.refl _)) ?_
  refine .bind (biasAt_follows bias o) fun start => ?_
  rw [dot_slices (row_inside hx hb) (row_inside hw ho)]
  exact .pure _

/-! ## Element by element -/

section

variable {x : Buffer α} {shape : Shape} {axis : Nat}

omit [Scalar α] in
theorem coordinate_follows (inner dim i : Nat) :
    Follows free (coordinate inner dim i) (Kernel.coordinate? inner dim i) := by
  unfold Kernel.coordinate?
  split
  · exact nofun
  · next positive =>
    rw [not_or] at positive
    rw [coordinate, Graph.except_bind_ok (quotient_ok i positive.1), remainder_ok _ positive.2]
    exact .pure _

omit [Scalar α] in
theorem innerSize_agrees (positive : 0 ∉ shape) {dim : Nat} (h : shape[axis]? = some dim)
    (last : free → axis + 1 < wordLimit) (fits : free → shape.size < wordLimit) :
    Agrees free (innerSize shape axis) (.ok (shape.inner axis)) := by
  have inside : axis + 1 ≤ shape.length := (List.getElem?_eq_some_iff.1 h).1
  refine (plus_agrees last).step ?_
  rw [if_pos inside]
  have behind : 0 ∉ shape.drop (axis + 1) := fun mem => positive (List.mem_of_mem_drop mem)
  refine count_agrees fun h => (Shape.countable_iff behind).2 ?_
  exact Nat.lt_of_le_of_lt (Shape.size_drop_le positive _) (fits h)

omit [Scalar α] in
theorem alongAxis_follows {f : α → Nat → Option α} {k : α → Nat → Guarded α}
    (positive : 0 ∉ shape) (last : free → axis + 1 < wordLimit)
    (fits : free → shape.size < wordLimit) (each : ∀ v c, Follows free (k v c) (f v c)) :
    Follows free (alongAxis x shape axis k) (Kernel.alongAxis x shape axis f) := by
  refine .found fun dim hdim => ?_
  refine .step (innerSize_agrees positive hdim last fits) ?_
  rw [Graph.except_bind_ok (entry_ok hdim)]
  refine collect_follows fun (v, i) _ => ?_
  exact .bind (coordinate_follows _ dim i) fun c => each v c

theorem batchNormalization_follows (eps : α) (x : Buffer α) (gamma beta mean variance : Buffer α)
    (positive : 0 ∉ shape) (fits : free → shape.size < wordLimit) :
    Follows free (batchNormalization eps x shape gamma beta mean variance)
      (Kernel.batchNormalization eps x shape gamma beta mean variance) :=
  alongAxis_follows positive (fun _ => by decide) fits fun _ c =>
    .bind (.read mean c) fun _ => .bind (.read variance c) fun _ =>
      .bind (.read gamma c) fun _ => .bind (.read beta c) fun _ => .pure _

theorem axiswiseAffine_follows (fused : Option (Activation α)) (x scale bias : Buffer α)
    (positive : 0 ∉ shape) (last : free → axis + 1 < wordLimit)
    (fits : free → shape.size < wordLimit) :
    Follows free (axiswiseAffine axis fused x shape scale bias)
      (Kernel.axiswiseAffine axis fused x shape scale bias) :=
  alongAxis_follows positive last fits fun _ c =>
    .bind (.read scale c) fun _ => .bind (.read bias c) fun _ => .pure _

theorem elementwiseAdd_follows (fused : Option (Activation α)) (operands : List (Buffer α)) :
    Follows free (elementwiseAdd fused operands) (Kernel.elementwiseAdd fused operands) := by
  refine collect_follows fun i _ => .bind ?_ fun sum => .pure _
  exact .foldlM (fun acc x _ => .bind (.read x i) fun v => .pure _) Scalar.emptySum

end

/-! ## Images -/

omit [Scalar α] in
/-- The pixels under a window, one after the other and all together. -/
theorem foldlM_pixels {π ρ σ : Type} {places : List π} {get : π → Option ρ}
    {fetch : ρ → Option α} {step : σ → α → σ} {k : σ → π → Guarded σ}
    (each : ∀ s, ∀ p ∈ places, ∀ q, get p = some q → Follows free (k s p) ((fetch q).map (step s)))
    (start : σ) :
    Follows free (places.foldlM (fun s p => overPixel (get p) s (k s p)) start)
      (((places.filterMap get).mapM fetch).map (·.foldl step start)) := by
  induction places generalizing start with
  | nil => exact .pure start
  | cons p places ih =>
    rw [List.foldlM_cons]
    cases here : get p with
    | none =>
      rw [List.filterMap_cons_none here]
      exact ih (fun s p hp => each s p (List.mem_cons_of_mem _ hp)) start
    | some q =>
      rw [List.filterMap_cons_some here, List.mapM_cons]
      have stepwise : ((do
          let v ← fetch q
          let vs ← (places.filterMap get).mapM fetch
          return v :: vs : Option (List α)).map (·.foldl step start)) =
            (fetch q).map (step start) >>= fun s =>
              ((places.filterMap get).mapM fetch).map (·.foldl step s) := by
        cases fetch q with
        | none => rfl
        | some v => cases (places.filterMap get).mapM fetch <;> rfl
      rw [stepwise]
      exact .bind (each start p List.mem_cons_self q here)
        (ih fun s p hp => each s p (List.mem_cons_of_mem _ hp))

omit [Scalar α] in
theorem foldl_pair {σ τ : Type} (f : σ → α → σ) (g : τ → α → τ) (vs : List α) (s : σ) (t : τ) :
    vs.foldl (fun st v => (f st.1 v, g st.2 v)) (s, t) = (vs.foldl f s, vs.foldl g t) := by
  induction vs generalizing s t with
  | nil => rfl
  | cons v vs ih => exact ih (f s v) (g t v)

theorem pooledValue_agrees (p : Pooling)
    (area : free → p.mode = .average → p.kernel.height * p.kernel.width < wordLimit)
    (values : List α) :
    Agrees free (pooledValue p (values.foldl Scalar.max Scalar.emptyMax,
      values.foldl (· + ·) Scalar.zero)) (.ok (Kernel.poolWindow p values)) := by
  unfold pooledValue Kernel.poolWindow
  cases mode : p.mode with
  | max => exact .refl _
  | average => exact (times_agrees fun h => area h mode).step (.refl _)

theorem poolingAt_follows {p : Pooling} {margins : Margins} {x : Buffer α} {image : ImageShape}
    (hx : x.size = image.batch * image.channels * image.height * image.width) {c : Nat}
    (hc : c < image.batch * image.channels) {oy ox : Nat}
    (rows : free → oy * p.stride.height + p.kernel.height ≤ wordLimit)
    (columns : free → ox * p.stride.width + p.kernel.width ≤ wordLimit)
    (indices : free → margins.Indexable x.size)
    (area : free → p.mode = .average → p.kernel.height * p.kernel.width < wordLimit) :
    Follows free (poolingAt p margins (x.extract (c * (image.height * image.width))
        (c * (image.height * image.width) + image.height * image.width)) image oy ox)
      ((Kernel.windowValues p margins x image c oy ox).map (Kernel.poolWindow p)) := by
  let size := image.height * image.width
  have hx' : x.size = image.batch * image.channels * size := hx.trans (Nat.mul_assoc _ _ _)
  have inside := row_inside hx' hc
  have element {y z : Nat} (hy : y < image.height) (hz : z < image.width) :
      (x.extract (c * size) (c * size + size))[y * image.width + z]? =
        x[(c * image.height + y) * image.width + z]? := by
    have place : y * image.width + z < size := index_lt hy hz
    have same : (c * image.height + y) * image.width + z =
        c * size + (y * image.width + z) := by
      rw [Nat.add_mul, Nat.mul_assoc, Nat.add_assoc]
    rw [Array.getElem?_extract, if_pos (by omega), same]
  have each (so_far : α × α) (place pixel : Nat × Nat)
      (found : Kernel.windowPixel? p.stride margins image oy ox place.1 place.2 = some pixel) :
      Follows free (poolingStep margins (x.extract (c * size) (c * size + size)) image so_far
          (oy * p.stride.height + place.1) (ox * p.stride.width + place.2))
        ((x[(c * image.height + pixel.1) * image.width + pixel.2]?).map fun v =>
          (Scalar.max so_far.1 v, so_far.2 + v)) := by
    obtain ⟨row, column⟩ := windowPixel?_eq_some found
    obtain ⟨hy, hz⟩ := Kernel.windowPixel?_lt found
    have place : pixel.1 * image.width + pixel.2 < size := index_lt hy hz
    rw [poolingStep, minus_ok row.1, row.2, Graph.except_ok_bind, ← element hy hz]
    refine placed_follows column (fun h => ?_) ((Follows.read _ _).map _)
    have := (indices h).2
    omega
  rw [poolingAt]
  intro r run
  obtain ⟨vs, values, rfl⟩ := Option.map_eq_some_iff.1 run
  have folded := foldlM_pixels (fun s p _ q => each s p q) (Scalar.emptyMax, Scalar.zero) _
    (Option.map_eq_some_iff.2 ⟨vs, values, rfl⟩)
  rw [foldl_pair] at folded
  exact ((overWindow_agrees rows columns).trans folded).step (pooledValue_agrees p area vs)

omit [Scalar α] in
theorem plane_agrees {x : Buffer α} {n height width c : Nat}
    (size : x.size = n * (height * width)) (hc : c < n) (some_row : 0 < height)
    (some_column : 0 < width) (fits : free → x.size < wordLimit) {k : Buffer α → Guarded γ} {r : Guarded γ}
    (next : Agrees free (k (x.extract (c * (height * width))
      (c * (height * width) + height * width))) r) :
    Agrees free (do
      let low ← times (← times c height) width
      let high ← times (← times (← plus c 1) height) width
      let plane ← slice x low high
      k plane) r := by
  have inside := row_inside size hc
  have after : (c + 1) * height * width ≤ x.size := by rwa [Nat.mul_assoc, Nat.succ_mul]
  have rows : (c + 1) * height ≤ (c + 1) * height * width := Nat.le_mul_of_pos_right _ some_column
  have number : c + 1 ≤ (c + 1) * height := Nat.le_mul_of_pos_right _ some_row
  have before : c * height * width ≤ (c + 1) * height * width :=
    Nat.mul_le_mul_right width (Nat.mul_le_mul_right height (Nat.le_succ c))
  have rows' : c * height ≤ c * height * width := Nat.le_mul_of_pos_right _ some_column
  refine (times_agrees fun h => ?_).step ((times_agrees fun h => ?_).step
    ((plus_agrees fun h => ?_).step ((times_agrees fun h => ?_).step
      ((times_agrees fun h => Nat.lt_of_le_of_lt after (fits h)).step ?_))))
  · have := fits h
    omega
  · have := fits h
    omega
  · have := fits h
    omega
  · have := fits h
    omega
  · rw [Nat.mul_assoc, Nat.mul_assoc, Nat.succ_mul,
      Graph.except_bind_ok (slice_ok (Nat.le_add_right _ _) inside)]
    exact next

theorem pooling_follows {p : Pooling} {x : Buffer α} {image : ImageShape} {out : Extent}
    (hx : x.size = image.batch * image.channels * image.height * image.width)
    (positive : 0 ∉ image.toShape)
    (result : 0 ∉ [image.batch, image.channels, out.height, out.width])
    (window : TensorGraph.windowExtent image.extent p.kernel p.stride
      (fun _ => p.effectiveMargins image.extent) = .ok out)
    (around : free → (p.effectiveMargins image.extent).Measurable image.extent)
    (indices : free → (p.effectiveMargins image.extent).Indexable x.size)
    (area : free → p.mode = .average → p.kernel.height * p.kernel.width < wordLimit)
    (room : free → image.batch * image.channels * out.height * out.width < bufferLimit) :
    Follows free (pooling p x image out) (Kernel.pooling p x image out) := by
  obtain ⟨height, width⟩ := image_positive positive
  obtain ⟨⟨_, rows, columns⟩, _, _⟩ := windowExtent_ok_iff.1 window
  let margins := p.effectiveMargins image.extent
  let planes := image.batch * image.channels
  let plane (c : Nat) := x.extract (c * (image.height * image.width))
    (c * (image.height * image.width) + image.height * image.width)
  have hx' : x.size = planes * (image.height * image.width) := hx.trans (Nat.mul_assoc _ _ _)
  have size := Kernel.size4 image.batch image.channels out.height out.width
  have fits (h : free) : x.size < wordLimit :=
    Nat.lt_of_le_of_lt (Nat.le_add_right _ _) (indices h).1
  have few (h : free) : planes < wordLimit := by
    have : planes ≤ planes * (image.height * image.width) :=
      Nat.le_mul_of_pos_right _ (Nat.mul_pos height width)
    have := fits h
    omega
  refine .step (effectiveMargins_agrees p (fun _ => ⟨height, width⟩) rows columns around) ?_
  refine .step (count_agrees fun h => (Shape.countable_iff result).2 ?_) ?_
  · rw [size]
    exact fits_word (room h)
  rw [size]
  refine .step (zeros_agrees room) (.step (times_agrees few) ?_)
  have sliced : Agrees free
      (loop planes (Array.replicate (planes * out.height * out.width) Scalar.zero) fun r c => do
        let low ← times (← times c image.height) image.width
        let high ← times (← times (← plus c 1) image.height) image.width
        let plane ← slice x low high
        loop out.height r fun r oy => loop out.width r fun r ox => do
          let v ← poolingAt p margins plane image oy ox
          write r (← position out.height out.width c oy ox) v)
      (loop planes (Array.replicate (planes * out.height * out.width) Scalar.zero) fun r c =>
        loop out.height r fun r oy => loop out.width r fun r ox => do
          let v ← poolingAt p margins (plane c) image oy ox
          write r (← position out.height out.width c oy ox) v) :=
    .loop (fun r c hc => plane_agrees hx' hc height width fits (.refl _)) _
  refine .of_agrees sliced ?_
  unfold Kernel.pooling
  refine fill_grid3 (fun c hc oy hy ox hx' => ?_) (fun c _ oy hy ox hx' bound => ?_) rfl
  · obtain ⟨tall, wide⟩ := window_fits window around hy hx'
    exact poolingAt_follows hx hc tall wide indices area
  · exact position_agrees (Nat.zero_lt_of_lt hx') fun h => Nat.lt_trans bound (fits_word (room h))

omit [Scalar α] in
theorem tabulate_size {π : Type} {positions : List π} {f : π → Option α} {r : Buffer α}
    (made : tabulate positions f = some r) : r.size = positions.length :=
  (Kernel.tabulate_eq_some_iff.1 made).1

/-- A result that is already as long as the buffer it is made from. -/
theorem filled_same {x r : Buffer α} (size : r.size = x.size) : Kernel.filled x r = r := by
  simp [Kernel.filled, size]

omit [Scalar α] in
/-- An element of a buffer, by the block that it is in and its place in there. -/
theorem element_follows {x : Buffer α} {block size inner offset i : Nat} (hi : i < inner)
    (fits : free → x.size < wordLimit) {k : Nat → Guarded γ} {f : α → Option γ}
    (next : ∀ v, x[(block * size + offset) * inner + i]? = some v →
      Follows free (k ((block * size + offset) * inner + i)) (f v)) :
    Follows free (position size inner block offset i >>= k)
      (x[(block * size + offset) * inner + i]? >>= f) := by
  refine .found fun v hv => ?_
  have inside := (Array.getElem?_eq_some_iff.1 hv).1
  exact .step (position_agrees (Nat.zero_lt_of_lt hi) fun h => Nat.lt_trans inside (fits h))
    (next v hv)

theorem responseNormalization_follows {p : ResponseNormalization α} {x : Buffer α}
    {image : ImageShape}
    (hx : x.size = image.batch * image.channels * image.height * image.width)
    (positive : 0 ∉ image.toShape)
    (neighbours : free → image.channels + p.size < wordLimit)
    (room : free → x.size < bufferLimit) :
    Follows free (responseNormalization p x image) (Kernel.responseNormalization p x image) := by
  let plane := image.height * image.width
  have size : image.batch * image.channels * plane = x.size := by
    rw [hx, Nat.mul_assoc (image.batch * image.channels)]
  have fits (h : free) : x.size < wordLimit := fits_word (room h)
  have some_plane : 0 < image.batch * image.channels := by
    simp only [ImageShape.toShape, List.mem_cons, not_or] at positive
    exact Nat.mul_pos (by omega) (by omega)
  unfold responseNormalization Kernel.responseNormalization
  refine .step (times_agrees fun h => ?_) (.step (zeros_agrees room) ?_)
  · exact Nat.lt_of_le_of_lt (size ▸ Nat.le_mul_of_pos_left plane some_plane) (fits h)
  have counted : Agrees free
      (loop image.batch (Array.replicate x.size Scalar.zero) fun r b =>
        loop image.channels r fun r c => do
          let behind ← minus (← plus c p.size) (p.size / 2)
          loop plane r fun r i => do
            let v ← responseAt p x image plane (c - p.size / 2) (min behind image.channels) b c i
            write r (← position image.channels plane b c i) v)
      (loop image.batch (Array.replicate x.size Scalar.zero) fun r b =>
        loop image.channels r fun r c => loop plane r fun r i => do
          let v ← responseAt p x image plane (c - p.size / 2)
            (min (c + p.size - p.size / 2) image.channels) b c i
          write r (← position image.channels plane b c i) v) := by
    refine .loop (fun r b _ => .loop (fun r c hc => ?_) r) _
    refine (plus_agrees fun h => ?_).step ?_
    · have := neighbours h
      omega
    rw [Graph.except_bind_ok (minus_ok (by omega))]
    exact .refl _
  intro r run
  obtain ⟨y, made, rfl⟩ := Option.map_eq_some_iff.1 run
  have long : y.size = x.size := by
    rw [tabulate_size made, grid4_length, Nat.one_mul, ← size]
  rw [filled_same long]
  refine counted.trans (fill_grid3 (fun b _ c _ i hi => ?_) (fun b _ c _ i hi bound => ?_) size y
    made)
  · refine .bind (.foldlM (fun acc j _ => element_follows hi fits fun v hv => ?_) Scalar.zero)
      fun squares => element_follows hi fits fun v hv => ?_
    · rw [Graph.except_bind_ok (read_ok hv)]
      exact .pure _
    · rw [Graph.except_bind_ok (read_ok hv)]
      exact .pure _
  · exact position_agrees (Nat.zero_lt_of_lt hi) fun h => Nat.lt_trans bound (fits h)

/-! ## Rows along an axis -/

section

variable {x before : Buffer α} {dim : Nat} {place : Nat → Nat} {index : Nat → Guarded Nat}
  {vs : List α} (places : ∀ d < dim, Agrees free (index d) (.ok (place d)))
  (values : ∀ d < dim, ∃ v, vs[d]? = some v ∧ x[place d]? = some v) (length : vs.length = dim)
  (bound : ∀ d < dim, place d < before.size)
  (apart : ∀ i < dim, ∀ j < dim, place i = place j → i = j)

include apart in
omit [Scalar α] in
theorem earlier_apart {d : Nat} (hd : d < dim) : ∀ i < d, place i ≠ place d := fun i hi same =>
  Nat.ne_of_lt hi (apart i (Nat.lt_trans hi hd) d hd same)

include places values length in
theorem rowMaximum_agrees : Agrees free (rowMaximum x dim index) (.ok (Kernel.maximum vs)) := by
  let P (d : Nat) (acc : α) : Prop := acc = (vs.take d).foldl Scalar.max Scalar.emptyMax
  have step : ∀ d < dim, ∀ acc, P d acc → ∃ acc', Agrees free (do
      let v ← read x (← index d)
      return Scalar.max acc v) (.ok acc') ∧ P (d + 1) acc' := by
    rintro d hd _ rfl
    obtain ⟨v, hv, hx⟩ := values d hd
    exact ⟨_, (places d hd).step (.of_eq (Graph.except_bind_ok (read_ok hx))),
      (take_succ_foldl hv _).symm⟩
  obtain ⟨most, run, rfl⟩ := loop_total (P := P) rfl step
  rw [List.take_of_length_le (Nat.le_of_eq length)] at run
  exact run

include places values length bound apart in
/-- The exponentials stand at the places of their elements, and their sum is the sum in that
order. -/
theorem writeExponentials_agrees (most : α) : ∃ now,
    Agrees free (writeExponentials x dim index most before)
      (.ok (now, (vs.map fun v => Scalar.exp (v - most)).foldl (· + ·) Scalar.zero)) ∧
    Written place (vs.map fun v => Scalar.exp (v - most)) before dim now := by
  let es := vs.map fun v => Scalar.exp (v - most)
  let P (d : Nat) (s : Buffer α × α) : Prop :=
    Written place es before d s.1 ∧ s.2 = (es.take d).foldl (· + ·) Scalar.zero
  have step : ∀ d < dim, ∀ s, P d s → ∃ s', Agrees free (do
      let v ← read x (← index d)
      let e := Scalar.exp (v - most)
      let r ← write s.1 (← index d) e
      return (r, s.2 + e)) (.ok s') ∧ P (d + 1) s' := by
    rintro d hd ⟨now, sum⟩ ⟨written, rfl⟩
    obtain ⟨v, hv, hx⟩ := values d hd
    have he : es[d]? = some (Scalar.exp (v - most)) := by rw [List.getElem?_map, hv]; rfl
    obtain ⟨next, run, written'⟩ := written.step (earlier_apart apart hd) (bound d hd) he
    have sum : (es.take (d + 1)).foldl (· + ·) Scalar.zero = _ := take_succ_foldl he Scalar.zero
    refine ⟨(next, _), (places d hd).step ?_, written', sum.symm⟩
    rw [Graph.except_bind_ok (read_ok hx)]
    exact (places d hd).step (.of_eq (Graph.except_bind_ok run))
  have first : P 0 (before, Scalar.zero) := ⟨.start, rfl⟩
  obtain ⟨⟨now, sum⟩, run, written, rfl⟩ := loop_total first step
  have all : es.take dim = es := List.take_of_length_le (by simp [es, length])
  rw [all] at run
  exact ⟨now, run, written⟩

include places bound apart in
/-- Each exponential is read where it stands, before its quotient is written there. -/
theorem divideRow_agrees {es : List α} {now : Buffer α} (length : es.length = dim)
    (written : Written place es before dim now) (sum : α) : ∃ after,
      Agrees free (divideRow dim index sum now) (.ok after) ∧
        Written place (es.map (· / sum)) now dim after := by
  have step : ∀ d < dim, ∀ r, Written place (es.map (· / sum)) now d r → ∃ r',
      Agrees free (do
        let i ← index d
        let e ← read r i
        write r i (e / sum)) (.ok r') ∧ Written place (es.map (· / sum)) now (d + 1) r' := by
    intro d hd r divided
    have he : es[d]? = some es[d] := List.getElem?_eq_getElem (length ▸ hd)
    have here : r[place d]? = some es[d] := by
      rw [divided.kept _ (earlier_apart apart hd), written.done d hd, he]
    have hq : (es.map (· / sum))[d]? = some (es[d] / sum) := by rw [List.getElem?_map, he]; rfl
    have inside : place d < now.size := written.size ▸ bound d hd
    obtain ⟨next, run, divided'⟩ := divided.step (earlier_apart apart hd) inside hq
    refine ⟨next, (places d hd).step (.of_eq ?_), divided'⟩
    rw [Graph.except_bind_ok (read_ok here), run]
  exact loop_total (P := Written place (es.map (· / sum)) now) .start step

include places values length bound apart in
theorem softmaxRow_agrees : ∃ after, Agrees free (softmaxRow x dim index before) (.ok after) ∧
    Written place (Kernel.softmaxRow vs) before dim after := by
  obtain ⟨now, exponentials, written⟩ :=
    writeExponentials_agrees places values length bound apart (Kernel.maximum vs)
  obtain ⟨after, divided, written'⟩ := divideRow_agrees places bound apart (by simp [length])
    written ((vs.map fun v => Scalar.exp (v - Kernel.maximum vs)).foldl (· + ·) Scalar.zero)
  refine ⟨after, ?_, written.trans written'⟩
  exact (rowMaximum_agrees places values length).step (exponentials.step divided)

end

section

variable {x y : Buffer α} {outer dim inner : Nat} {rows : List (List α)}

/-- Row by row, the loops over the rows make the result. -/
theorem softmax_loops (size : outer * dim * inner = x.size) (fits : free → x.size < wordLimit)
    (made : Kernel.softmaxRows x outer dim inner = some rows)
    (tabulated : tabulate (grid4 1 outer dim inner) (fun (_, o, d, i) => do
      let row ← rows[o * inner + i]?
      row[d]?) = some y) :
    Agrees free (loop outer (Array.replicate x.size Scalar.zero) fun r o => loop inner r fun r i =>
      softmaxRow x dim (fun d => position dim inner o d i) r) (.ok y) := by
  let place (p : Nat × Nat) (d : Nat) : Nat := (p.1 * dim + d) * inner + p.2
  let pairs := (List.range outer).flatMap fun o => (List.range inner).map fun i => (o, i)
  -- the rows that are done hold their part of the result
  let Done (done : List (Nat × Nat)) (r : Buffer α) : Prop := r.size = x.size ∧
    ∀ p ∈ done, p ∈ pairs ∧ ∀ d < dim, r[place p d]? = y[place p d]?
  have mem {p : Nat × Nat} (hp : p ∈ pairs) : p.1 < outer ∧ p.2 < inner := by
    obtain ⟨o, i⟩ := p
    simpa [pairs] using hp
  have step : ∀ done, ∀ p ∈ pairs, ∀ r, Done done r → ∃ r',
      Agrees free (softmaxRow x dim (fun d => position dim inner p.1 d p.2) r) (.ok r') ∧
        Done (p :: done) r' := by
    rintro done p hp r ⟨same, held⟩
    obtain ⟨ho, hi⟩ := mem hp
    obtain ⟨vs, values, length, result⟩ := softmax_row made tabulated ho hi
    have inside (d : Nat) (hd : d < dim) : place p d < x.size := by
      rw [← size]
      exact index_lt (index_lt ho hd) hi
    have places (d : Nat) (hd : d < dim) :
        Agrees free (position dim inner p.1 d p.2) (.ok (place p d)) :=
      position_agrees (Nat.zero_lt_of_lt hi) fun h => Nat.lt_trans (inside d hd) (fits h)
    obtain ⟨after, run, written⟩ := softmaxRow_agrees places values length
      (fun d hd => same ▸ inside d hd)
      fun d hd d' hd' e => (place_unique ho hi hd ho hi hd' e).2.1
    refine ⟨after, run, written.size.trans same, fun q hq => ?_⟩
    by_cases e : q = p
    · subst e
      exact ⟨hp, fun d hd => (written.done d hd).trans (result d hd).symm⟩
    · obtain ⟨hq, rest⟩ := held q ((List.mem_cons.1 hq).resolve_left e)
      obtain ⟨ho', hi'⟩ := mem hq
      refine ⟨hq, fun d hd => (written.kept _ fun d' hd' overlap => e ?_).trans (rest d hd)⟩
      obtain ⟨outside, _, inside⟩ := place_unique ho hi hd' ho' hi' hd overlap
      exact Prod.ext outside.symm inside.symm
  have first : Done [] (Array.replicate x.size Scalar.zero) := ⟨Array.size_replicate, nofun⟩
  obtain ⟨r, run, same, held⟩ := foldlM_total step first
  rw [loop_pairs] at run
  have count : (grid4 1 outer dim inner).length = x.size := by
    rw [grid4_length, Nat.one_mul, size]
  have result : r = y := by
    refine (Kernel.numbered_grid4 1 outer dim inner).ext (same.trans count.symm)
      (tabulate_size tabulated) ?_
    rintro ⟨z, o, d, i⟩ hp
    obtain ⟨hz, ho, hd, hi⟩ := Kernel.mem_grid4.1 hp
    have listed : (o, i) ∈ pairs.reverse ++ [] := by simp [pairs, ho, hi]
    obtain rfl : z = 0 := Nat.lt_one_iff.1 hz
    simpa only [flatIndex, Nat.zero_mul, Nat.zero_add] using (held _ listed).2 d hd
  exact result ▸ run

end

theorem softmax_follows {axis : Nat} {x : Buffer α} {shape : Shape} (positive : 0 ∉ shape)
    (hx : x.size = shape.size) (last : free → axis + 1 < wordLimit)
    (room : free → x.size < bufferLimit) :
    Follows free (softmax axis x shape) (Kernel.softmax axis x shape) := by
  have fits (h : free) : x.size < wordLimit := fits_word (room h)
  refine .found fun dim hdim => ?_
  intro r run
  simp only at run
  split at run
  · cases run
  · next block =>
    obtain ⟨rows, made, run⟩ := Option.bind_eq_some_iff.1 run
    obtain ⟨y, tabulated, done⟩ := Option.bind_eq_some_iff.1 run
    cases done
    have size : x.size / (dim * shape.inner axis) * dim * shape.inner axis = x.size := by
      rw [Nat.mul_assoc, hx]
      exact Nat.div_mul_cancel (Kernel.block_dvd hdim)
    have long : y.size = x.size := by
      rw [tabulate_size tabulated, grid4_length, Nat.one_mul, size]
    have divides : dim * shape.inner axis ≤ x.size := by
      rw [hx]
      exact Nat.le_of_dvd (Kernel.size_pos positive) (Kernel.block_dvd hdim)
    rw [filled_same long]
    refine (innerSize_agrees positive hdim last fun h => hx ▸ fits h).step ?_
    rw [Graph.except_bind_ok (entry_ok hdim)]
    refine (times_agrees fun h => Nat.lt_of_le_of_lt divides (fits h)).step ?_
    rw [Graph.except_bind_ok (quotient_ok _ block)]
    exact (zeros_agrees room).step (softmax_loops size fits made tabulated)

end Guarded

end TensorGraph
