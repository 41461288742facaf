import TensorGraph.Proofs.Evaluation.Kernel

/-!
# TensorGraph.Proofs.Evaluation.Grid

Elements of buffers by their positions.

* `Numbered`: positions listed in the order of their indices. Grids are.
* `tabulate_eq_some_iff`: the elements of a buffer, one by one.
* `alongAxis_tabulate`: a kernel along an axis, on a buffer made position by position.
* `place_unique`, `softmax_row`: the rows along an axis, and those of a softmax.
-/

namespace TensorGraph

namespace Kernel

variable {α β γ π σ : Type}

theorem mapM_eq_some_iff {f : β → Option γ} {xs : List β} {ys : List γ} :
    xs.mapM f = some ys ↔ ys.length = xs.length ∧
      ∀ (i : Nat) x, xs[i]? = some x → f x = ys[i]? := by
  induction xs generalizing ys with
  | nil =>
    constructor
    · intro h
      cases h
      exact ⟨rfl, fun i x hx => nomatch hx⟩
    · rintro ⟨length, _⟩
      rw [List.eq_nil_of_length_eq_zero length]
      rfl
  | cons x xs ih =>
    simp only [List.mapM_cons, Option.bind_eq_bind, Option.bind_eq_some_iff]
    constructor
    · rintro ⟨y, hy, rest, run, e⟩
      cases e
      obtain ⟨length, each⟩ := ih.1 run
      refine ⟨by rw [List.length_cons, length, List.length_cons], fun i z hz => ?_⟩
      cases i with
      | zero =>
        cases hz
        exact hy
      | succ i => exact each i z hz
    · rintro ⟨length, each⟩
      cases ys with
      | nil => cases length
      | cons y ys =>
        exact ⟨y, each 0 x rfl, ys, ih.2 ⟨Nat.succ.inj length, fun i z hz => each (i + 1) z hz⟩,
          rfl⟩

theorem tabulate_eq_some_iff {positions : List π} {f : π → Option α} {r : Array α} :
    tabulate positions f = some r ↔ r.size = positions.length ∧
      ∀ (i : Nat) p, positions[i]? = some p → f p = r[i]? := by
  have unfolded : tabulate positions f = some r ↔ positions.mapM f = some r.toList := by
    rw [tabulate, Option.map_eq_some_iff]
    constructor
    · rintro ⟨ys, run, rfl⟩
      exact run
    · intro run
      exact ⟨r.toList, run, Array.toArray_toList⟩
  rw [unfolded, mapM_eq_some_iff, Array.length_toList]
  simp only [Array.getElem?_toList]

theorem tabulate_congr {positions : List π} {positions' : List σ} {f : π → Option α}
    {k : σ → Option α} (same : List.Forall₂ (fun p q => f p = k q) positions positions') :
    tabulate positions f = tabulate positions' k := by
  rw [tabulate, tabulate, mapM_congr same]

/-- A map that the steps of two folds respect takes one result to the other. -/
theorem foldlM_hom {f : β → γ → Option β} {k : π → γ → Option π} (h : β → π) {xs : List γ}
    (step : ∀ acc, ∀ x ∈ xs, k (h acc) x = (f acc x).map h) (start : β) :
    xs.foldlM k (h start) = (xs.foldlM f start).map h := by
  induction xs generalizing start with
  | nil => rfl
  | cons x xs ih =>
    rw [List.foldlM_cons, List.foldlM_cons, step start x List.mem_cons_self]
    cases f start x with
    | none => rfl
    | some acc => exact ih (fun acc y hy => step acc y (List.mem_cons_of_mem x hy)) acc

/-! ## Positions in the order of their indices -/

/-- The positions are listed in the order of their indices, and none is left out. -/
def Numbered (positions : List π) (index : π → Nat) : Prop :=
  positions.map index = List.range positions.length

theorem Numbered.index {positions : List π} {index : π → Nat} (h : Numbered positions index)
    {i : Nat} {p : π} (hp : positions[i]? = some p) : index p = i := by
  have bound : i < positions.length := (List.getElem?_eq_some_iff.1 hp).1
  have here := congrArg (·[i]?) h
  simp only [List.getElem?_map, hp, Option.map_some] at here
  rw [List.getElem?_range bound] at here
  exact Option.some.inj here

/-- The element at a position. -/
theorem Numbered.getElem? {positions : List π} {index : π → Nat} (h : Numbered positions index)
    {f : π → Option α} {r : Array α} (made : tabulate positions f = some r) {p : π}
    (hp : p ∈ positions) : r[index p]? = f p := by
  obtain ⟨i, hi⟩ := List.mem_iff_getElem?.1 hp
  rw [h.index hi, (tabulate_eq_some_iff.1 made).2 i p hi]

theorem Numbered.injective {positions : List π} {index : π → Nat} (h : Numbered positions index)
    {p q : π} (hp : p ∈ positions) (hq : q ∈ positions) (same : index p = index q) : p = q := by
  obtain ⟨i, hi⟩ := List.mem_iff_getElem?.1 hp
  obtain ⟨j, hj⟩ := List.mem_iff_getElem?.1 hq
  rw [h.index hi, h.index hj] at same
  subst same
  exact Option.some.inj (hi.symm.trans hj)

/-- Buffers that hold the same at all positions. -/
theorem Numbered.ext {positions : List π} {index : π → Nat} (h : Numbered positions index)
    {x y : Array α} (hx : x.size = positions.length) (hy : y.size = positions.length)
    (same : ∀ p ∈ positions, x[index p]? = y[index p]?) : x = y := by
  refine Array.ext_getElem? fun i => ?_
  by_cases hi : i < positions.length
  · rw [← h.index (List.getElem?_eq_getElem hi)]
    exact same _ (List.getElem_mem hi)
  · rw [Array.getElem?_eq_none (by omega), Array.getElem?_eq_none (by omega)]

/-- Rows of one length, one after the other. -/
theorem range_flatMap (n m : Nat) :
    ((List.range n).flatMap fun i => (List.range m).map fun j => i * m + j) =
      List.range (n * m) := by
  induction n with
  | zero => simp
  | succ n ih =>
    rw [List.range_succ, List.flatMap_append, ih, Nat.succ_mul, List.range_add]
    simp

theorem numbered_pairs (n m : Nat) :
    Numbered ((List.range n).flatMap fun i => (List.range m).map fun j => (i, j))
      fun p => p.1 * m + p.2 := by
  unfold Numbered
  rw [length_flatMap_range fun _ => (List.length_map _).trans List.length_range,
    ← range_flatMap, List.map_flatMap]
  simp only [List.map_map, Function.comp_def]

theorem numbered_grid4 (a b c d : Nat) : Numbered (grid4 a b c d) (flatIndex b c d) := by
  unfold Numbered
  rw [grid4_length, ← range_flatMap (a * b * c), ← range_flatMap (a * b), ← range_flatMap a]
  simp only [grid4, flatIndex, List.map_flatMap, List.map_map, Function.comp_def,
    List.flatMap_assoc, List.flatMap_map]

/-! ## Along an axis -/

/-- A kernel along an axis takes a buffer element by element, so it can follow at once what makes
the elements. -/
theorem alongAxis_tabulate {positions : List π} {index channel : π → Nat}
    (numbered : Numbered positions index) {f : π → Option α} {y : Array α}
    (made : tabulate positions f = some y) {shape : Shape} {axis dim : Nat}
    (hdim : shape[axis]? = some dim)
    (place : ∀ p ∈ positions, coordinate? (shape.inner axis) dim (index p) = some (channel p))
    (k : α → Nat → Option α) :
    alongAxis y shape axis k = tabulate positions fun p => f p >>= fun v => k v (channel p) := by
  obtain ⟨size, each⟩ := tabulate_eq_some_iff.1 made
  rw [alongAxis, hdim, Option.bind_eq_bind, Option.bind_some]
  refine tabulate_congr (List.forall₂_iff_get.2 ⟨by simp [size], fun i _ hi => ?_⟩)
  have here : positions[i]? = some positions[i] := List.getElem?_eq_getElem hi
  have element : f positions[i] = some y[i] :=
    (each i _ here).trans (Array.getElem?_eq_getElem (size ▸ hi))
  have coordinate := place _ (List.getElem_mem hi)
  rw [numbered.index here] at coordinate
  simp [element, coordinate]

/-! ## Rows along an axis -/

/-- A step along an axis and all that is behind it, again and again, make up the elements. -/
theorem block_dvd {s : Shape} {axis dim : Nat} (h : s[axis]? = some dim) :
    dim * s.inner axis ∣ s.size := by
  induction s generalizing axis with
  | nil => cases h
  | cons d s ih =>
    cases axis with
    | zero =>
      cases h
      exact Nat.dvd_refl _
    | succ axis => exact Nat.dvd_mul_left_of_dvd (ih h) d

/-- Elements of different rows are at different places. -/
theorem place_unique {outer dim inner o i d o' i' d' : Nat} (ho : o < outer) (hi : i < inner)
    (hd : d < dim) (ho' : o' < outer) (hi' : i' < inner) (hd' : d' < dim)
    (same : (o * dim + d) * inner + i = (o' * dim + d') * inner + i') :
    o = o' ∧ d = d' ∧ i = i' := by
  have positions := (numbered_grid4 1 outer dim inner).injective
    (mem_grid4.2 ⟨Nat.one_pos, ho, hd, hi⟩) (mem_grid4.2 ⟨Nat.one_pos, ho', hd', hi'⟩)
    (by simpa only [flatIndex, Nat.zero_mul, Nat.zero_add] using same)
  simpa using positions

/-- The rows of a softmax, and where their elements are in its result. -/
theorem softmax_row [Scalar α] {x y : Array α} {outer dim inner : Nat}
    {rows : List (List α)} (made : softmaxRows x outer dim inner = some rows)
    (tabulated : tabulate (grid4 1 outer dim inner) (fun (_, o, d, i) => do
      let row ← rows[o * inner + i]?
      row[d]?) = some y) {o i : Nat} (ho : o < outer) (hi : i < inner) : ∃ vs : List α,
      (∀ d < dim, ∃ v, vs[d]? = some v ∧ x[(o * dim + d) * inner + i]? = some v) ∧
      vs.length = dim ∧
      ∀ d < dim, y[(o * dim + d) * inner + i]? = (softmaxRow vs)[d]? := by
  have pair : (o, i) ∈ (List.range outer).flatMap fun o => (List.range inner).map fun i =>
      (o, i) := by
    simp [ho, hi]
  have lines := (numbered_pairs outer inner).getElem?
    (Option.map_eq_some_iff.2 ⟨rows, made, rfl⟩) pair
  rw [List.getElem?_toArray] at lines
  have present : o * inner + i < rows.length := by
    rw [(mapM_eq_some_iff.1 made).1, length_flatMap_range fun _ =>
      (List.length_map _).trans List.length_range]
    exact index_lt ho hi
  rw [List.getElem?_eq_getElem present] at lines
  obtain ⟨vs, read, row⟩ := Option.map_eq_some_iff.1 lines.symm
  obtain ⟨length, each⟩ := mapM_eq_some_iff.1 read
  rw [List.length_range] at length
  refine ⟨vs, fun d hd => ?_, length, fun d hd => ?_⟩
  · have here := each d d (by simp [hd])
    have found : vs[d]? = some vs[d] := List.getElem?_eq_getElem (length ▸ hd)
    exact ⟨vs[d], found, here.trans found⟩
  · have position : (0, o, d, i) ∈ grid4 1 outer dim inner :=
      mem_grid4.2 ⟨Nat.one_pos, ho, hd, hi⟩
    have element := (numbered_grid4 1 outer dim inner).getElem? tabulated position
    simp only [flatIndex, Nat.zero_mul, Nat.zero_add] at element
    rw [element, List.getElem?_eq_getElem present, row]
    rfl

end Kernel

end TensorGraph
