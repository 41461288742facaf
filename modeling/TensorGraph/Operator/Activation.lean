import TensorGraph.Scalar

/-!
# TensorGraph.Operator.Activation

Pointwise nonlinearities, which stand alone or are stored in the operator whose result they act
on.
-/

namespace TensorGraph

inductive Activation (α : Type) where
  | relu
  | sigmoid
  | tanh
  | leakyRelu (slope : α)
  deriving DecidableEq

namespace Activation

variable {α : Type}

def name : Activation α → String
  | .relu => "relu"
  | .sigmoid => "sigmoid"
  | .tanh => "tanh"
  | .leakyRelu _ => "leaky_relu"

variable [Scalar α]

def apply : Activation α → α → α
  | .relu, v => Scalar.max v Scalar.zero
  | .sigmoid, v => Scalar.one / (Scalar.one + Scalar.exp (-v))
  | .tanh, v => Scalar.tanh v
  | .leakyRelu slope, v => if Scalar.positive v then v else v * slope

/-- An optional activation: without one, a value stays as it is. -/
def applyTo (a : Option (Activation α)) (v : α) : α :=
  match a with
  | some f => f.apply v
  | none => v

end Activation

end TensorGraph
