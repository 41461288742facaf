import TensorGraph.Pass.Basic

/-!
# TensorGraph.Pass.DeadCode

Removal of operators that no output depends on.
-/

namespace TensorGraph.Pass

variable {α : Type}

/-- Goes through operators from the last to the first. `needed` are the variables that an output
depends on so far; the result lists the operators that write none of them. -/
def deadOperators (g : Graph α) : List VariableId → List OperatorId → List OperatorId
  | _, [] => []
  | needed, o :: rest =>
    match g.operatorAt? o with
    | none => deadOperators g needed rest
    | some op =>
      if op.outputs.any needed.contains then deadOperators g (op.inputs ++ needed) rest
      else o :: deadOperators g needed rest

def removeDead : Edit α PassReport := do
  let order ← schedule
  let dead := deadOperators (← get) (← get).outputs order.reverse
  dead.forM fun o => discard (Edit.removeOperator o)
  let report := dead.foldl (fun r _ => r.record 1) PassReport.nothing
  let dropped ← Edit.prune
  return if 0 < dropped then { report with changed := true } else report

def deadCodeRemoval : Pass α := ⟨"eliminate_dead_code", removeDead⟩

end TensorGraph.Pass
