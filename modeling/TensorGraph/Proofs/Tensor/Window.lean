import TensorGraph.Tensor.Window

/-!
# TensorGraph.Proofs.Tensor.Window

How many windows lie along one axis, and what they cover.

* `ceilDiv_le_iff`: a quotient that is rounded up, told by what it bounds.
* `exists_window`: windows without gaps between them cover an axis up to the end of the last one.
* `padded_ceilExtension`: ceil mode moves the far side of an axis to the end of a window.
* `padded_samePadding`: the convention `same` pads an axis up to the end of its last window, or
  not at all.
-/

namespace TensorGraph

/-! ## Quotients that are rounded up -/

section

variable {n d m : Nat}

theorem ceilDiv_le_iff (positive : 0 < d) : ceilDiv n d ≤ m ↔ n ≤ m * d := by
  have split := Nat.div_add_mod n d
  have rest := Nat.mod_lt n positive
  rw [ceilDiv]
  split
  · next whole =>
    rw [whole, Nat.add_zero] at split
    rw [← Nat.mul_le_mul_left_iff positive, split, Nat.mul_comm]
  · next part =>
    rw [Nat.add_one_le_iff, Nat.div_lt_iff_lt_mul positive]
    constructor
    · exact Nat.le_of_lt
    · intro h
      refine Nat.lt_of_le_of_ne h fun e => part ?_
      rw [e, Nat.mul_mod_left]

theorem ceilDiv_eq_succ_iff (positive : 0 < d) :
    ceilDiv n d = m + 1 ↔ m * d < n ∧ n ≤ (m + 1) * d := by
  rw [← ceilDiv_le_iff positive, ← Nat.not_le, ← ceilDiv_le_iff positive]
  omega

theorem ceilDiv_pos (hn : 0 < n) (hd : 0 < d) : 1 ≤ ceilDiv n d := by
  refine Nat.not_lt.1 fun none_left => ?_
  have bound := (ceilDiv_le_iff hd).1 (Nat.le_of_lt_succ none_left)
  omega

theorem ceilDiv_mul (m : Nat) (positive : 0 < d) : ceilDiv (m * d) d = m := by
  refine Nat.le_antisymm ((ceilDiv_le_iff positive).2 (Nat.le_refl _)) ?_
  exact Nat.le_of_mul_le_mul_right ((ceilDiv_le_iff positive).1 (Nat.le_refl _)) positive

end

/-! ## Windows along an axis -/

section

variable {padded kernel stride n : Nat}

/-- The windows on an axis that ends where one of them does. -/
theorem windowCount_full (n kernel : Nat) (positive : 0 < stride) :
    windowCount (n * stride + kernel) kernel stride = n + 1 := by
  rw [windowCount, Nat.add_sub_cancel, Nat.mul_div_cancel _ positive]

theorem windowCount_eq_succ (last : n * stride + kernel ≤ padded)
    (past : padded < (n + 1) * stride + kernel) : windowCount padded kernel stride = n + 1 := by
  have steps : (padded - kernel) / stride = n := Nat.div_eq_of_lt_le (by omega) (by omega)
  rw [windowCount, steps]

/-- Every window ends on the axis. -/
theorem window_le (fits : kernel ≤ padded) {o : Nat} (h : o < windowCount padded kernel stride) :
    o * stride + kernel ≤ padded := by
  have start : o * stride ≤ padded - kernel := Nat.mul_le_of_le_div _ _ _ (Nat.le_of_lt_succ h)
  omega

/-- Windows that start no farther apart than they are long have no gaps between them. -/
theorem exists_window (gapless : stride ≤ kernel) (positive : 0 < stride) {row : Nat}
    (inside : row < n * stride + kernel) :
    ∃ o < n + 1, o * stride ≤ row ∧ row < o * stride + kernel := by
  have start : row / stride * stride ≤ row := Nat.div_mul_le_self row stride
  have next : row < (row / stride + 1) * stride :=
    Nat.lt_mul_of_div_lt (Nat.lt_succ_self _) positive
  rw [Nat.add_one_mul] at next
  by_cases early : row / stride ≤ n
  · exact ⟨row / stride, Nat.lt_succ_of_le early, start, by omega⟩
  · have late : n * stride ≤ row / stride * stride :=
      Nat.mul_le_mul_right stride (Nat.le_of_not_le early)
    exact ⟨n, Nat.lt_succ_self n, by omega, inside⟩

theorem ceilExtension_lt (padded kernel : Nat) (positive : 0 < stride) :
    ceilExtension padded kernel stride < stride := by
  unfold ceilExtension
  extract_lets rest
  split
  · exact positive
  · next part =>
    have some_rest : rest ≠ 0 := fun e => part (.inr e)
    omega

/-- Ceil mode moves the far side of an axis to the end of the last window that starts on it. -/
theorem padded_ceilExtension (positive : 0 < stride) (fits : kernel ≤ padded) :
    padded + ceilExtension padded kernel stride =
      ceilDiv (padded - kernel) stride * stride + kernel := by
  have split := Nat.div_add_mod' (padded - kernel) stride
  have below := Nat.mod_lt (padded - kernel) positive
  unfold ceilExtension ceilDiv
  extract_lets rest
  have rest_eq : (padded - kernel) % stride = rest := rfl
  rw [rest_eq] at split below ⊢
  by_cases whole : rest = 0
  · rw [if_pos (.inr whole), if_pos whole]
    omega
  · rw [if_neg (by simp only [Nat.not_lt.2 fits, whole, or_self, not_false_eq_true]),
      if_neg whole, Nat.add_one_mul]
    omega

end

/-! ## The convention `same` -/

section

variable {input kernel stride : Nat}

theorem samePadding_sides (input kernel stride : Nat) :
    (samePadding input kernel stride).2 = (samePadding input kernel stride).1 ∨
      (samePadding input kernel stride).2 = (samePadding input kernel stride).1 + 1 := by
  unfold samePadding
  dsimp only
  omega

/-- An axis is padded up to the end of the last of `⌈input / stride⌉` windows. One that goes on
behind this window is not padded. -/
theorem padded_samePadding (input kernel stride : Nat) :
    input + (samePadding input kernel stride).1 + (samePadding input kernel stride).2 =
      max input ((ceilDiv input stride - 1) * stride + kernel) := by
  unfold samePadding
  dsimp only
  omega

end

end TensorGraph
