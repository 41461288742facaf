import Mathlib.Algebra.Field.Rat
import Mathlib.Data.Rat.Sqrt
import Mathlib.Tactic.Ring
import TensorGraph.Scalar

/-!
# TensorGraph.Proofs.Evaluation.Exact

Scalars that no operation rounds.

* `ExactScalar`: scalars of a field. Roots, exponentials, maxima and the like stay uninterpreted.
* `Scalar.IsExact`: some given operations are those of a field.

The rational numbers are such scalars. Statements about them say what a change of the order of
operations means apart from rounding.
-/

namespace TensorGraph

class ExactScalar (α : Type) extends Scalar α, Field α where
  /-- In a field there is one zero only. -/
  emptySum_eq : emptySum = 0

def Scalar.IsExact (α : Type) [s : Scalar α] : Prop := ∃ exact : ExactScalar α, exact.toScalar = s

/-- Rational numbers. Roots of squares are exact; what has no rational value is replaced by some
number, since nothing is assumed of it. -/
instance : ExactScalar ℚ where
  emptySum := 0
  emptyMax := 0
  leastFinite := 0
  max := max
  sqrt := Rat.sqrt
  exp x := 1 + x
  tanh x := x
  pow x y := x ^ y.num
  ofNat n := n
  positive x := 0 < x
  nonnegative x := 0 ≤ x
  message := toString
  literal := toString
  emptySum_eq := rfl

theorem isExact_rat : Scalar.IsExact ℚ := ⟨inferInstance, rfl⟩

end TensorGraph
