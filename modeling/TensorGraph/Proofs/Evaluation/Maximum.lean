import TensorGraph.Evaluation.Kernel
import TensorGraph.Proofs.Decimal.Finite

/-!
# TensorGraph.Proofs.Evaluation.Maximum

Maxima of numbers that are no NaNs, and where they start.

* `Binary32.emptyMax_max`: negative infinity never wins over a number.
* `Binary32.leastFinite_max`: the least finite number wins over that infinity alone.
* `Kernel.maximum_eq_emptyMax_iff`: that infinity is the maximum only of itself, and of nothing.
* `Kernel.foldl_leastFinite`: otherwise a maximum may start at the least finite number.
-/

namespace TensorGraph

open Float.Model (Format UnpackedFloat)

namespace Binary32

/-! ## Comparisons -/

theorem value_lt_iff {x y : Binary32} : x.value < y.value ↔
    x.value.toModel.unpack.compare y.value.toModel.unpack = some .lt := by
  show decide (x.value.toModel < y.value.toModel) = true ↔ _
  rw [decide_eq_true_iff]
  exact beq_iff_eq

/-- The two numbers that are neither finite nor NaNs. -/
theorem eq_infinity {x : Binary32} (number : x.isNaN = false) (infinite : ¬x.isFinite) :
    x = ⟨0x7f800000⟩ ∨ x = ⟨0xff800000⟩ := by
  have width := x.bits.toNat_lt
  rw [isNaN, decide_eq_false_iff_not, UInt32.lt_iff_toNat_lt, magnitude_toNat] at number
  rw [isFinite, decide_eq_true_iff, UInt32.lt_iff_toNat_lt, magnitude_toNat] at infinite
  have number : ¬0x7f800000 < x.bits.toNat % 0x80000000 := number
  have infinite : ¬x.bits.toNat % 0x80000000 < 0x7f800000 := infinite
  have words : x.bits.toNat = 0x7f800000 ∨ x.bits.toNat = 0xff800000 := by omega
  exact words.imp (fun h => congrArg mk (UInt32.toNat_inj.1 h))
    fun h => congrArg mk (UInt32.toNat_inj.1 h)

/-- What a number above negative infinity is unpacked to. -/
theorem unpack_of_above {x : Binary32} (number : x.isNaN = false) (above : x ≠ ⟨0xff800000⟩) :
    x.value.toModel.unpack = .infinity .positive ∨
      (∃ s, x.value.toModel.unpack = .zero s) ∨
      ∃ s m e positive, x.value.toModel.unpack = .finite s m e positive := by
  by_cases finite : x.isFinite
  · have unpacked := isFinite_iff.1 finite
    cases kind : x.value.toModel.unpack with
    | infinity s =>
      rw [kind] at unpacked
      cases unpacked
    | notANumber =>
      rw [kind] at unpacked
      cases unpacked
    | zero s => exact .inr (.inl ⟨s, rfl⟩)
    | finite s m e positive => exact .inr (.inr ⟨s, m, e, positive, rfl⟩)
  · rcases eq_infinity number finite with rfl | rfl
    · exact .inl rfl
    · exact absurd rfl above

theorem unpack_leastFinite : (⟨0xff7fffff⟩ : Binary32).value.toModel.unpack =
    .finite .negative 0xffffff 104 (by decide) := rfl

theorem unpack_emptyMax : (⟨0xff800000⟩ : Binary32).value.toModel.unpack =
    .infinity .negative := rfl

/-- Nothing is less than negative infinity. -/
theorem not_lt_emptyMax (x : Binary32) : ¬x.value < (⟨0xff800000⟩ : Binary32).value := by
  rw [value_lt_iff, unpack_emptyMax]
  cases x.value.toModel.unpack with
  | infinity s => cases s <;> decide
  | notANumber => decide
  | zero s => exact nofun
  | finite s m e positive => exact nofun

/-- Only that infinity is less than the least finite number. -/
theorem not_lt_leastFinite {x : Binary32} (number : x.isNaN = false) (above : x ≠ ⟨0xff800000⟩) :
    ¬x.value < (⟨0xff7fffff⟩ : Binary32).value := by
  rw [value_lt_iff, unpack_leastFinite]
  rcases unpack_of_above number above with kind | ⟨s, kind⟩ | ⟨s, m, e, positive, kind⟩
  · rw [kind]
    exact nofun
  · rw [kind]
    exact nofun
  · rw [kind]
    cases s with
    | positive => exact nofun
    | negative =>
      have exponent : e < 105 := unpack_exponent_lt kind
      have mantissa : m < 0x1000000 := unpack_mantissa_lt kind
      have below : (compare e 104).then (compare m 0xffffff) ≠ .gt := by
        intro greater
        rcases Ordering.then_eq_gt.1 greater with exponent_gt | ⟨-, mantissa_gt⟩
        · have := Int.compare_eq_gt.1 exponent_gt
          omega
        · have := Nat.compare_eq_gt.1 mantissa_gt
          omega
      exact fun less => below (Ordering.swap_eq_lt.1 (Option.some.inj less))

/-- That infinity is less than any other number. -/
theorem emptyMax_lt {x : Binary32} (number : x.isNaN = false) (above : x ≠ ⟨0xff800000⟩) :
    (⟨0xff800000⟩ : Binary32).value < x.value := by
  rw [value_lt_iff, unpack_emptyMax]
  rcases unpack_of_above number above with kind | ⟨s, kind⟩ | ⟨s, m, e, positive, kind⟩
  · rw [kind]
    rfl
  · rw [kind]
    rfl
  · rw [kind]
    rfl

/-! ## Maxima -/

theorem max_eq_emptyMax_iff {x y : Binary32} (hx : x.isNaN = false) (hy : y.isNaN = false) :
    max x y = ⟨0xff800000⟩ ↔ x = ⟨0xff800000⟩ ∧ y = ⟨0xff800000⟩ := by
  rw [max, hy, if_neg Bool.false_ne_true]
  constructor
  · intro least
    split at least
    · next less =>
      subst least
      exact absurd less (not_lt_emptyMax y)
    · next less =>
      subst least
      exact ⟨Decidable.byContradiction fun above => less (emptyMax_lt hx above), rfl⟩
  · rintro ⟨rfl, rfl⟩
    decide

theorem isNaN_max {x y : Binary32} (hx : x.isNaN = false) (hy : y.isNaN = false) :
    (max x y).isNaN = false := by
  rw [max, hy, if_neg Bool.false_ne_true]
  split
  · exact hx
  · exact hy

theorem emptyMax_max {x : Binary32} (number : x.isNaN = false) : max ⟨0xff800000⟩ x = x := by
  rw [max, number, if_neg Bool.false_ne_true, if_neg (not_lt_emptyMax x)]

theorem leastFinite_max {x : Binary32} (number : x.isNaN = false) :
    max ⟨0xff7fffff⟩ x = if x = ⟨0xff800000⟩ then ⟨0xff7fffff⟩ else x := by
  split
  · next least =>
    subst least
    decide
  · next above =>
    rw [max, number, if_neg Bool.false_ne_true, if_neg (not_lt_leastFinite number above)]

end Binary32

/-! ## Folds -/

namespace Kernel

open Binary32

theorem foldl_max_eq_emptyMax_iff {vs : List Binary32} (numbers : ∀ v ∈ vs, v.isNaN = false)
    {x : Binary32} (number : x.isNaN = false) : vs.foldl Scalar.max x = ⟨0xff800000⟩ ↔
      x = ⟨0xff800000⟩ ∧ ∀ v ∈ vs, v = ⟨0xff800000⟩ := by
  induction vs generalizing x with
  | nil => simp
  | cons v vs ih =>
    obtain ⟨first, others⟩ := List.forall_mem_cons.1 numbers
    rw [List.forall_mem_cons, ← and_assoc]
    exact (ih others (isNaN_max number first)).trans
      (and_congr_left fun _ => max_eq_emptyMax_iff number first)

/-- Negative infinity is the maximum only of itself, and of nothing. -/
theorem maximum_eq_emptyMax_iff {vs : List Binary32} (numbers : ∀ v ∈ vs, v.isNaN = false) :
    maximum vs = ⟨0xff800000⟩ ↔ ∀ v ∈ vs, v = ⟨0xff800000⟩ :=
  (foldl_max_eq_emptyMax_iff numbers (by decide)).trans (and_iff_right rfl)

/-- A maximum may start at the least finite number, unless it is negative infinity. -/
theorem foldl_leastFinite {vs : List Binary32} (numbers : ∀ v ∈ vs, v.isNaN = false) :
    vs.foldl Scalar.max Scalar.leastFinite =
      if maximum vs = ⟨0xff800000⟩ then Scalar.leastFinite else maximum vs := by
  induction vs with
  | nil => rfl
  | cons v vs ih =>
    obtain ⟨first, others⟩ := List.forall_mem_cons.1 numbers
    have start : maximum (v :: vs) = vs.foldl Scalar.max v :=
      congrArg (vs.foldl Scalar.max) (emptyMax_max first)
    have least : (v :: vs).foldl Scalar.max Scalar.leastFinite =
        vs.foldl Scalar.max (if v = ⟨0xff800000⟩ then Scalar.leastFinite else v) :=
      congrArg (vs.foldl Scalar.max) (leastFinite_max first)
    by_cases above : v = ⟨0xff800000⟩
    · rw [least, if_pos above, ih others, start, above]
      rfl
    · have found : vs.foldl Scalar.max v ≠ ⟨0xff800000⟩ := fun same =>
        above ((foldl_max_eq_emptyMax_iff others first).1 same).1
      rw [least, if_neg above, start, if_neg found]

end Kernel

end TensorGraph
