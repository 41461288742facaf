import TensorGraph.Graph.Edit
import TensorGraph.Graph.Order

/-!
# TensorGraph.Pass.Basic

What all passes over a graph share.

* `PassReport`: what a pass did.
* `Pass`: a named change of the whole graph.
* `Pass.sweep`: one step at every operator, in dependency order.
* `Graph.fusibleProducer?`: the condition under which two operators may become one.
-/

namespace TensorGraph

/-- Whether the graph changed, how many patterns were applied, and how many operators went. -/
structure PassReport where
  changed : Bool
  applied : Nat
  erased : Nat
  deriving DecidableEq

namespace PassReport

def nothing : PassReport := ⟨false, 0, 0⟩

def merge (a b : PassReport) : PassReport :=
  ⟨a.changed || b.changed, a.applied + b.applied, a.erased + b.erased⟩

/-- One more pattern applied, with `erased` operators gone. -/
def record (r : PassReport) (erased : Nat) : PassReport :=
  ⟨true, r.applied + 1, r.erased + erased⟩

theorem merge_assoc (a b c : PassReport) : (a.merge b).merge c = a.merge (b.merge c) := by
  simp only [merge, Bool.or_assoc, Nat.add_assoc]

@[simp] theorem merge_nothing (r : PassReport) : r.merge nothing = r := by
  simp [merge, nothing]

@[simp] theorem nothing_merge (r : PassReport) : nothing.merge r = r := by
  simp [merge, nothing]

theorem record_eq (r : PassReport) (n : Nat) : r.record n = r.merge ⟨true, 1, n⟩ := by
  simp [record, merge]

end PassReport

/-- A change of the graph that keeps what the graph computes. -/
structure Pass (α : Type) where
  name : String
  run : Edit α PassReport

variable {α : Type}

namespace Pass

/-- The operators in dependency order, as they are when a pass begins. -/
def schedule : Edit α (List OperatorId) := do
  match (← get).topologicalOrder with
  | .ok order => return order
  | .error e => throw e

/-- A step at every operator that is still live when its turn comes. -/
def visit {ε : Type} (step : Operator α → PassReport → EStateM ε (Graph α) PassReport) :
    PassReport → List OperatorId → EStateM ε (Graph α) PassReport
  | report, [] => return report
  | report, o :: rest => do
    match (← get).operatorAt? o with
    | none => visit step report rest
    | some op =>
      let report ← step op report
      visit step report rest

/-- Drops what a pass has left unused, if it has changed anything. -/
def tidyUp (report : PassReport) : Edit α PassReport := do
  if report.changed then
    discard Edit.prune
  return report

/-- Runs a step at every operator, then drops what the steps left unused. -/
def sweep (step : Operator α → PassReport → Edit α PassReport) : Edit α PassReport := do
  let order ← schedule
  let report ← visit step .nothing order
  tidyUp report

end Pass

/-- The operator that writes `v`, if `consumer` is the only reader of `v`, reads it once, and `v`
is not an output of the graph. -/
def Graph.fusibleProducer? (g : Graph α) (v : VariableId) (consumer : OperatorId) :
    Option OperatorId :=
  if g.singleUseConsumer? v = some consumer then g.producer? v else none

/-- Takes `consumer` out and lets `producer` write its result. What was between them is no longer
used. -/
def Edit.absorb (producer consumer : OperatorId) : Edit α Unit := do
  let removed ← Edit.removeOperator consumer
  match removed.inputs, removed.outputs with
  | between :: _, result :: _ => Edit.rebindOutput producer between result
  | _, _ => return

end TensorGraph
