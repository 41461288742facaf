import TensorGraph.Proofs.Evaluation.Run

/-!
# TensorGraph.Proofs.Evaluation.Inputs

The buffers that a graph is given.

* `Graph.Misfit`: what is wrong with buffers that do not fit, with the error that says so.
* `bindInputs_error_iff`, `misfit_of_not_fits`: buffers are refused for a misfit, and for nothing
  else.
* `evaluate_error_iff`: a graph that passes its checks can be evaluated on all other buffers.
* `checkOperator_of_evaluate`: evaluation checks every operator on its way.
-/

namespace TensorGraph.Graph

open Kernel (Buffer)

variable {α : Type} {g : Graph α} {inputs : List (Buffer α)} {e : GraphError}

/-- The buffers are not as many as the inputs, or else the first one that differs in size from its
variable is `x`, given for `v`. -/
inductive Misfit (g : Graph α) (inputs : List (Buffer α)) : GraphError → Prop
  | count (differ : inputs.length ≠ g.inputs.length) : Misfit g inputs
      (.invalidGraph (.named "inputs") (.bufferCount g.inputs.length inputs.length))
  | size (before after : List (VariableId × Buffer α)) (v : VariableId) (x : Buffer α)
      (same : inputs.length = g.inputs.length)
      (split : g.inputs.zip inputs = before ++ (v, x) :: after)
      (fitting : ∀ p ∈ before, p.2.size = (g.shape p.1).size)
      (differs : x.size ≠ (g.shape v).size) : Misfit g inputs
      (.shapeMismatch (.variable v) (.inputSize (g.shape v) x.size))

/-- Records the buffer of one input. -/
def bindInput (g : Graph α) (values : Valuation α) (p : VariableId × Buffer α) :
    Except GraphError (Valuation α) := do
  ensure (p.2.size == (g.shape p.1).size)
    (.shapeMismatch (.variable p.1) (.inputSize (g.shape p.1) p.2.size))
  return p :: values

theorem bindInput_ok {p : VariableId × Buffer α} (h : p.2.size = (g.shape p.1).size)
    (values : Valuation α) : g.bindInput values p = .ok (p :: values) := by
  rw [bindInput, ensure, if_pos (beq_iff_eq.2 h)]
  rfl

theorem bindInput_error {p : VariableId × Buffer α} (h : p.2.size ≠ (g.shape p.1).size)
    (values : Valuation α) : g.bindInput values p =
      .error (.shapeMismatch (.variable p.1) (.inputSize (g.shape p.1) p.2.size)) := by
  rw [bindInput, ensure, if_neg (by simpa using h)]
  rfl

/-- The first buffer of a wrong size ends the run. -/
theorem foldlM_bindInput_error_iff {pairs : List (VariableId × Buffer α)} {values : Valuation α} :
    pairs.foldlM g.bindInput values = .error e ↔ ∃ before v x after,
      pairs = before ++ (v, x) :: after ∧ (∀ p ∈ before, p.2.size = (g.shape p.1).size) ∧
      x.size ≠ (g.shape v).size ∧
      e = .shapeMismatch (.variable v) (.inputSize (g.shape v) x.size) := by
  induction pairs generalizing values with
  | nil => simp [pure, Except.pure]
  | cons p pairs ih =>
    rw [List.foldlM_cons]
    by_cases fits : p.2.size = (g.shape p.1).size
    · rw [except_bind_ok (bindInput_ok fits values), ih]
      constructor
      · rintro ⟨before, v, x, after, rfl, fitting, rest⟩
        exact ⟨p :: before, v, x, after, rfl, List.forall_mem_cons.2 ⟨fits, fitting⟩, rest⟩
      · rintro ⟨_ | ⟨q, before⟩, v, x, after, split, fitting, differs, rest⟩
        · cases split
          exact absurd fits differs
        · cases split
          exact ⟨before, v, x, after, rfl, (List.forall_mem_cons.1 fitting).2, differs, rest⟩
    · rw [bindInput_error fits]
      constructor
      · intro h
        cases h
        exact ⟨[], p.1, p.2, pairs, rfl, nofun, fits, rfl⟩
      · rintro ⟨_ | ⟨q, before⟩, v, x, after, split, fitting, _, rfl⟩
        · cases split
          rfl
        · cases split
          exact absurd (fitting _ List.mem_cons_self) fits

theorem bindInputs_error_iff : g.bindInputs inputs = .error e ↔ g.Misfit inputs e := by
  by_cases same : inputs.length = g.inputs.length
  · have counted : ensure (inputs.length == g.inputs.length)
        (.invalidGraph (.named "inputs") (.bufferCount g.inputs.length inputs.length)) = .ok ⟨⟩ :=
      ensure_ok_iff.2 (beq_iff_eq.2 same)
    rw [bindInputs, except_bind_ok counted]
    show (g.inputs.zip inputs).foldlM g.bindInput [] = .error e ↔ _
    rw [foldlM_bindInput_error_iff]
    constructor
    · rintro ⟨before, v, x, after, split, fitting, differs, rfl⟩
      exact .size before after v x same split fitting differs
    · rintro (differ | ⟨before, after, v, x, _, split, fitting, differs⟩)
      · exact absurd same differ
      · exact ⟨before, v, x, after, split, fitting, differs, rfl⟩
  · rw [bindInputs, ensure, if_neg (by simpa using same)]
    constructor
    · intro h
      cases h
      exact .count same
    · rintro (_ | ⟨_, _, _, _, equal⟩)
      · rfl
      · exact absurd equal same

theorem fits_iff : g.Fits inputs ↔ inputs.length = g.inputs.length ∧
    ∀ p ∈ g.inputs.zip inputs, p.2.size = (g.shape p.1).size := by
  refine ⟨fun h => ⟨h.length, zip_size h⟩, fun ⟨same, fitting⟩ => ?_⟩
  refine List.ext_getElem (by simpa using same) fun i hi hi' => ?_
  rw [List.length_map] at hi hi'
  rw [List.getElem_map, List.getElem_map]
  have pair : (g.inputs[i], inputs[i]) ∈ g.inputs.zip inputs := by
    rw [← List.getElem_zip (h := by rw [List.length_zip]; omega)]
    exact List.getElem_mem _
  exact fitting _ pair

theorem fitting_of_bound {pairs : List (VariableId × Buffer α)} {values values' : Valuation α}
    (h : pairs.foldlM g.bindInput values = .ok values') :
    ∀ p ∈ pairs, p.2.size = (g.shape p.1).size := by
  induction pairs generalizing values with
  | nil => exact nofun
  | cons p pairs ih =>
    rw [List.foldlM_cons] at h
    by_cases fits : p.2.size = (g.shape p.1).size
    · rw [except_bind_ok (bindInput_ok fits values)] at h
      exact List.forall_mem_cons.2 ⟨fits, ih h⟩
    · rw [bindInput_error fits] at h
      cases h

theorem fits_of_bound {values : Valuation α} (h : g.bindInputs inputs = .ok values) :
    g.Fits inputs := by
  obtain ⟨counted, bound⟩ := ensure_bind_ok_iff.1 h
  exact fits_iff.2 ⟨beq_iff_eq.1 counted, fitting_of_bound bound⟩

theorem misfit_of_not_fits (h : ¬g.Fits inputs) : ∃ e, g.Misfit inputs e := by
  cases bound : g.bindInputs inputs with
  | ok values => exact absurd (fits_of_bound bound) h
  | error e => exact ⟨e, bindInputs_error_iff.1 bound⟩

section

variable [Scalar α]

theorem evaluate_of_bindInputs_error (h : g.bindInputs inputs = .error e) :
    g.evaluate inputs = .error e := by
  rw [evaluate, h]
  rfl

/-- Where a graph passes its checks, its evaluation fails for buffers that do not fit only. -/
theorem evaluate_error_iff (h : g.Linked) {rank : OperatorId → Nat} (sound : g.outline.Sound rank) :
    g.evaluate inputs = .error e ↔ g.Misfit inputs e := by
  constructor
  · intro failed
    by_cases fits : g.Fits inputs
    · obtain ⟨outputs, evaluated, _⟩ := evaluate_total h sound fits
      cases evaluated.symm.trans failed
    · obtain ⟨e', misfit⟩ := misfit_of_not_fits fits
      cases (evaluate_of_bindInputs_error (bindInputs_error_iff.2 misfit)).symm.trans failed
      exact misfit
  · intro misfit
    exact evaluate_of_bindInputs_error (bindInputs_error_iff.2 misfit)

theorem checkOperator_of_steps {order : List OperatorId} {values values' : Valuation α}
    (run : order.foldlM g.evaluateStep values = .ok values') :
    ∀ o ∈ order, ∀ op, g.operatorAt? o = some op → g.checkOperator op = .ok ⟨⟩ := by
  induction order generalizing values with
  | nil => exact nofun
  | cons o order ih =>
    rw [List.foldlM_cons] at run
    obtain ⟨values₁, step, rest⟩ := except_bind_ok_iff.1 run
    refine List.forall_mem_cons.2 ⟨fun op ho => ?_, ih rest⟩
    simp only [evaluateStep, ho] at step
    obtain ⟨operands, _, computed⟩ := except_bind_ok_iff.1 step
    obtain ⟨r, computed, _⟩ := except_bind_ok_iff.1 computed
    exact (except_check_bind_ok_iff.1 computed).1

/-- What can be evaluated passes the checks of its operators. -/
theorem checkOperator_of_evaluate (h : g.Linked) {outputs : List (Buffer α)}
    (evaluated : g.evaluate inputs = .ok outputs) {o : OperatorId} {op : Operator α}
    (ho : g.operatorAt? o = some op) : g.checkOperator op = .ok ⟨⟩ := by
  obtain ⟨values, _, rest⟩ := except_bind_ok_iff.1 evaluated
  obtain ⟨order, found, rest⟩ := except_bind_ok_iff.1 rest
  obtain ⟨values', run, _⟩ := except_bind_ok_iff.1 rest
  have mem : o ∈ order := ((topologicalOrder_sorted h found).mem_iff o).2 ⟨op, ho⟩
  exact checkOperator_of_steps run o mem op ho

end

end TensorGraph.Graph
