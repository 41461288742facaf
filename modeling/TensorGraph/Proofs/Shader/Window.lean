import TensorGraph.Proofs.Evaluation.Kernel
import TensorGraph.Proofs.Shader.Unrolled

/-!
# TensorGraph.Proofs.Shader.Window

Guarded loops over windows.

* `unroll_axisLoop`: a guarded loop over an axis goes on at the pixels under the window, in order.
* `unroll_windowLoop`: two of them go on at the pixels that the evaluator takes, in its order.
-/

namespace TensorGraph

namespace Shader

variable {α : Type} {params : Nat → Nat} {σ : Scope} {body rest : List (Statement α)}

/-- The guard of a loop over an axis of a window leaves out what is no pixel. -/
theorem holds?_guard (before extent : Nat) {p : Index} {q : Nat} (hp : p.value? σ = some q) :
    (Test.or (.less p (.literal before))
      (.atLeast (p - .literal before) (.literal extent))).holds? σ =
      some (decide (q < before ∨ extent ≤ q - before)) := by
  have position := Index.written?_zero hp
  have number (n : Nat) : (Index.literal n).written? σ 0 = some n :=
    Index.written?_zero Index.value?_literal
  simp only [Test.holds?, position, number, Option.bind_eq_bind, Option.bind_some]
  by_cases front : q < before
  · simp [front]
  · have past := Index.written?_zero
      (Index.value?_sub hp (Index.value?_literal (n := before)) (k := q - before) (by omega))
    simp [front, past]

/-- A loop over an axis of window `o` goes on only at the pixels under the window. -/
theorem unroll_axisLoop {offset window position : String} {kernel stride before extent o : Nat}
    (named : σ window = some o) (apart : window ≠ offset)
    (code : Nat → Nat → List (Statement α))
    (inside : ∀ k y, pixel? stride before extent o k = some y →
      unroll params ((σ.bind offset k).bind position (o * stride + k)) body =
        some (code k y, .finished)) :
    unroll params σ
        (KernelSpec.axisLoop offset window position kernel stride before extent body :: rest) =
      (unroll params σ rest).map (Unrolled.prepend ((List.range kernel).flatMap fun k =>
        (pixel? stride before extent o k).elim [] (code k))) := by
  refine unroll_loop _ fun k _ => ?_
  have place : (Index.named window * .literal stride + .named offset).value? (σ.bind offset k) =
      some (o * stride + k) := by
    refine Index.value?_add (Index.value?_mul (Index.value?_named ?_) Index.value?_literal)
      (Index.value?_named (Scope.bind_self ..))
    rw [Scope.bind_of_ne _ apart, named]
  rw [unroll_index place]
  have guard := holds?_guard before extent
    (Index.value?_named (Scope.bind_self (σ.bind offset k) position (o * stride + k)))
  by_cases outside : o * stride + k < before ∨ extent ≤ o * stride + k - before
  · have none : pixel? stride before extent o k = none := if_pos outside
    rw [decide_eq_true outside] at guard
    refine ⟨.continued, by decide, ?_⟩
    rw [unroll_continued guard, none]
    rfl
  · have some : pixel? stride before extent o k = some (o * stride + k - before) := if_neg outside
    rw [decide_eq_false outside] at guard
    refine ⟨.finished, by decide, ?_⟩
    rw [unroll_continueIf guard, inside k _ some, some]
    rfl

/-- The scope under the loops of a window. -/
def Scope.under (σ : Scope) (stride : Extent) (oy ox ky kx : Nat) : Scope :=
  (((σ.bind "ky" ky).bind "iy" (oy * stride.height + ky)).bind "kx" kx).bind "ix"
    (ox * stride.width + kx)

section

variable {stride : Extent} {oy ox ky kx : Nat}

theorem Scope.under_ky : σ.under stride oy ox ky kx "ky" = some ky := by
  simp [Scope.under, Scope.bind]

theorem Scope.under_kx : σ.under stride oy ox ky kx "kx" = some kx := by
  simp [Scope.under, Scope.bind]

theorem Scope.under_iy :
    σ.under stride oy ox ky kx "iy" = some (oy * stride.height + ky) := by
  simp [Scope.under, Scope.bind]

theorem Scope.under_ix :
    σ.under stride oy ox ky kx "ix" = some (ox * stride.width + kx) := by
  simp [Scope.under, Scope.bind]

theorem Scope.under_of_notMem {name : String} (h : name ∉ ["ky", "iy", "kx", "ix"]) :
    σ.under stride oy ox ky kx name = σ name := by
  simp only [List.mem_cons, List.not_mem_nil, or_false, not_or] at h
  simp [Scope.under, Scope.bind, h]

end

/-- The loops over window `(oy, ox)` meet what the evaluator meets, row by row. -/
theorem unroll_windowLoop {kernel stride : Extent} {margins : Margins} {image : ImageShape}
    {oy ox : Nat} (row : σ "oy" = some oy) (column : σ "ox" = some ox)
    (code : Nat → Nat → Nat → Nat → List (Statement α))
    (inside : ∀ ky kx y x, pixel? stride.height margins.top image.height oy ky = some y →
      pixel? stride.width margins.left image.width ox kx = some x →
      unroll params (σ.under stride oy ox ky kx) body = some (code ky kx y x, .finished)) :
    unroll params σ (KernelSpec.windowLoop kernel stride margins image body :: rest) =
      (unroll params σ rest).map (Unrolled.prepend ((Kernel.windowOffsets kernel).flatMap
        fun (ky, kx) => (Kernel.windowPixel? stride margins image oy ox ky kx).elim []
          fun (y, x) => code ky kx y x)) := by
  have lines : ((Kernel.windowOffsets kernel).flatMap fun (ky, kx) =>
      (Kernel.windowPixel? stride margins image oy ox ky kx).elim []
        fun (y, x) => code ky kx y x) =
      (List.range kernel.height).flatMap fun ky =>
        (pixel? stride.height margins.top image.height oy ky).elim [] fun y =>
          (List.range kernel.width).flatMap fun kx =>
            (pixel? stride.width margins.left image.width ox kx).elim [] fun x =>
              code ky kx y x := by
    simp only [Kernel.windowOffsets, List.flatMap_assoc, List.flatMap_map]
    refine congrArg (List.flatMap · _) (funext fun ky => ?_)
    unfold Kernel.windowPixel?
    cases pixel? stride.height margins.top image.height oy ky with
    | none => simp
    | some y =>
      refine congrArg (List.flatMap · _) (funext fun kx => ?_)
      cases pixel? stride.width margins.left image.width ox kx <;> rfl
  rw [lines]
  refine unroll_axisLoop row (by decide) _ fun ky y hy => ?_
  have columns : ((σ.bind "ky" ky).bind "iy" (oy * stride.height + ky)) "ox" = some ox := by
    rw [Scope.bind_of_ne _ (by decide), Scope.bind_of_ne _ (by decide), column]
  rw [unroll_axisLoop columns (by decide) _ fun kx x hx => inside ky kx y x hy hx, unroll]
  simp [Unrolled.prepend]

end Shader

end TensorGraph
