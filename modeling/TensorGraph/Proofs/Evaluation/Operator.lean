import TensorGraph.Proofs.Evaluation.Kernel
import TensorGraph.Proofs.Graph.Sound

/-!
# TensorGraph.Proofs.Evaluation.Operator

Values of operators.

* `evaluateOperator_total`, `evaluateOperator_ok`: checked operators always have one.
* `evaluateOperator_result`: it is what the kind of the operator computes.
-/

namespace TensorGraph.Graph

variable {α : Type} [Scalar α] {g : Graph α} {rank : OperatorId → Nat}

/-- The value of a checked operator is what its kind computes, if that is of the right size. -/
theorem evaluateOperator_of_compute {op : Operator α} (checked : g.checkOperator op = .ok ⟨⟩)
    {v : VariableId} (outputs : op.outputs = [v]) {operands : List (Array α)}
    (count : operands.length = op.inputs.length) {r : Array α}
    (run : op.kind.compute (op.inputs.map g.shape) (g.shape v) operands = some r)
    (size : r.size = (g.shape v).size) : g.evaluateOperator op operands = .ok r := by
  have counted : ensure (operands.length == op.inputs.length)
      (.invalidGraph op.place (.operandCount operands.length op.inputs.length)) = .ok ⟨⟩ := by
    rw [ensure_ok_iff, beq_iff_eq, count]
  unfold evaluateOperator
  rw [except_bind_ok checked, except_bind_ok counted]
  simp only [outputs, run]
  have fits : ensure (r.size == (g.shape v).size)
      (.shapeMismatch op.place (.resultSize r.size (g.shape v))) = .ok ⟨⟩ := by
    rw [ensure_ok_iff, beq_iff_eq, size]
  rw [except_bind_ok fits]
  rfl

/-- In a graph without empty tensors, an operator that passes its check has a value for operands of
the right sizes, and the value has the size of its output. -/
theorem evaluateOperator_total {op : Operator α} (checked : g.checkOperator op = .ok ⟨⟩)
    (positive : ∀ u, 0 ∉ g.shape u) {v : VariableId} (outputs : op.outputs = [v])
    {operands : List (Array α)}
    (sizes : operands.map Array.size = op.inputs.map fun u => (g.shape u).size) :
    ∃ r, g.evaluateOperator op operands = .ok r ∧ r.size = (g.shape v).size := by
  obtain ⟨v', outputs', typed⟩ := checkOperator_iff.1 checked
  cases outputs.symm.trans outputs'
  rw [← shapes_eq, ← shape_eq] at typed
  have count : operands.length = op.inputs.length := by
    simpa using congrArg List.length sizes
  obtain ⟨r, run, size⟩ := compute_total typed
    (fun s hs => by
      obtain ⟨u, _, rfl⟩ := List.mem_map.1 hs
      exact positive u)
    (show operands.map Array.size = _ by rw [sizes, List.map_map]; rfl)
  exact ⟨r, evaluateOperator_of_compute checked outputs count run size, size⟩

/-- Operators of a sound graph have values. -/
theorem evaluateOperator_ok (sound : g.outline.Sound rank) {o : OperatorId} {op : Operator α}
    (ho : g.operatorAt? o = some op) {v : VariableId} (outputs : op.outputs = [v])
    {operands : List (Array α)}
    (sizes : operands.map Array.size = op.inputs.map fun u => (g.outline.shape u).size) :
    ∃ r, g.evaluateOperator op operands = .ok r ∧ r.size = (g.outline.shape v).size := by
  simp only [← shape_eq] at sizes ⊢
  exact evaluateOperator_total (checkOperator_iff.2 (sound.result ho))
    (fun u => shape_eq g u ▸ sound.positive u) outputs sizes

/-- The value is what the kind computes. -/
theorem evaluateOperator_result {op : Operator α} {operands : List (Array α)} {r : Array α}
    (h : g.evaluateOperator op operands = .ok r) {w : VariableId} (outputs : op.outputs = [w]) :
    op.kind.compute (op.inputs.map g.outline.shape) (g.outline.shape w) operands = some r := by
  obtain ⟨_, _, h⟩ := except_bind_ok_iff.1 h
  obtain ⟨_, _, h⟩ := except_bind_ok_iff.1 h
  simp only [outputs, shapes_eq, shape_eq] at h
  split at h
  · cases h
  · next found =>
    obtain ⟨_, _, done⟩ := except_bind_ok_iff.1 h
    cases done
    exact found

theorem evaluateOperator_size {op : Operator α} {operands : List (Array α)} {r : Array α}
    (h : g.evaluateOperator op operands = .ok r) {v : VariableId} (outputs : op.outputs = [v]) :
    r.size = (g.shape v).size := by
  obtain ⟨_, _, h⟩ := except_bind_ok_iff.1 h
  obtain ⟨_, _, h⟩ := except_bind_ok_iff.1 h
  simp only [outputs] at h
  split at h
  · cases h
  · obtain ⟨_, fits, done⟩ := except_bind_ok_iff.1 h
    cases done
    exact beq_iff_eq.1 (ensure_ok_iff.1 fits)

end TensorGraph.Graph
