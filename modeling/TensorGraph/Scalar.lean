import TensorGraph.Binary32

/-!
# TensorGraph.Scalar

The numbers that tensors hold.

* `Scalar`: the operations that operators, passes and kernels use. Everything else in the library
  that computes with tensors is stated for any `Scalar`.
* `Binary32` is the scalar of every tensor that is read or written.
-/

namespace TensorGraph

/-- Scalars of tensors. No law is assumed: a statement that needs one says so. -/
class Scalar (α : Type) extends Add α, Sub α, Mul α, Div α, Neg α where
  zero : α
  one : α
  /-- Where a sum of operands starts: adding it to a number gives that number, zeros of either
  sign included. -/
  emptySum : α
  /-- Where a maximum starts: no number is below it. -/
  emptyMax : α
  /-- The least finite number, where a shader starts a maximum. -/
  leastFinite : α
  /-- The greater of two numbers, and the second one if they are equal. -/
  max : α → α → α
  sqrt : α → α
  exp : α → α
  tanh : α → α
  pow : α → α → α
  ofNat : Nat → α
  positive : α → Bool
  nonnegative : α → Bool
  /-- Text in messages. -/
  message : α → String
  /-- Text in shader source. -/
  literal : α → String

instance : Scalar Binary32 where
  zero := 0
  one := 1
  emptySum := -0
  emptyMax := ⟨0xff800000⟩
  leastFinite := ⟨0xff7fffff⟩
  max := Binary32.max
  sqrt := Binary32.sqrt
  exp := Binary32.exp
  tanh := Binary32.tanh
  pow := Binary32.pow
  ofNat := Binary32.ofNat
  positive x := 0 < x.value
  nonnegative x := 0 ≤ x.value
  message := Binary32.text .message
  literal := Binary32.literal

end TensorGraph
