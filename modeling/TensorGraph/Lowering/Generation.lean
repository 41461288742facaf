import TensorGraph.Graph.Validity
import TensorGraph.Lowering.Weights

/-!
# TensorGraph.Lowering.Generation

The stages that every backend goes through.

`start`, then `traversing`, then `lowering` once per operator, then `packing`, then `done`; from
`traversing` and `lowering` a failure leads to `failed`, which is final.

* `Generation`: how far a run has come, and all stages that it entered.
* `Generation.traverse`, `lower`, `pack`, `finish`: the steps of a run.
-/

namespace TensorGraph

inductive Stage where
  | start
  | traversing
  | lowering (o : OperatorId)
  | packing
  | done
  | failed (reason : String)
  deriving DecidableEq

/-- A run: the stage it is in, and the stages before, the first one first. -/
structure Generation where
  stage : Stage
  before : List Stage
  deriving DecidableEq

namespace Generation

/-- A computation of a run, which keeps the run also when it fails. -/
abbrev Step (β : Type) := EStateM GraphError Generation β

def start : Generation := ⟨.start, []⟩

/-- Every stage entered so far. -/
def history (r : Generation) : List Stage := r.before ++ [r.stage]

def enter (stage : Stage) : Step Unit :=
  modify fun r => ⟨stage, r.history⟩

/-- Takes the result of a check. A failure is recorded before it is passed on. -/
def settle {β : Type} : Except GraphError β → Step β
  | .ok x => pure x
  | .error e => do
    enter (.failed e.message)
    throw e

variable {α : Type}

/-- The order of the operators of a valid graph that keeps the limits of the backend. -/
def traverse (g : Graph α) (limits : Graph α → Except GraphError Unit) :
    Step (List OperatorId) := do
  enter .traversing
  settle do
    g.validate
    limits g
    g.topologicalOrder

variable [Scalar α]

/-- Lowers one operator whose shapes check. -/
def lowerOne {κ : Type} (g : Graph α) (lowerOperator : Operator α → Except GraphError κ)
    (o : OperatorId) : Step κ := do
  enter (.lowering o)
  settle do
    match g.operatorAt? o with
    | none => throw (.atOperator o .operatorNotLive)
    | some op =>
      g.checkOperator op
      lowerOperator op

/-- Lowers operators in the given order. -/
def lower {κ : Type} (g : Graph α) (order : List OperatorId)
    (lowerOperator : Operator α → Except GraphError κ) : Step (List κ) :=
  order.mapM (lowerOne g lowerOperator)

def pack (g : Graph α) (order : List OperatorId) : Step (WeightBuffer α) := do
  enter .packing
  return .pack g order

def finish : Step Unit := enter .done

end Generation

end TensorGraph
