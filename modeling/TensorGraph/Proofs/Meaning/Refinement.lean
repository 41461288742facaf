import TensorGraph.Proofs.Evaluation.Solution
import TensorGraph.Proofs.Optimizer.Contract

/-!
# TensorGraph.Proofs.Meaning.Refinement

Changes that keep what a graph computes.

* `Outline.Refines`: every solution of one outline gives a solution of another one with the same
  outputs.
* `Collapse.refines`: operators that become one refine, if the new one computes from the same
  values what the last of them computed.
* `Swept.refines`, `Swept.evaluate`: a pass whose steps refine keeps the outputs for all inputs.
-/

namespace TensorGraph

variable {α : Type} [Scalar α]

open TensorGraph.Graph Edit

namespace Outline

structure Refines (O O' : Outline α) : Prop where
  outputs : O'.outputs = O.outputs
  solution : ∀ {bound φ}, O.Solution bound φ → ∃ φ', O'.Solution bound φ' ∧
    ∀ v ∈ O.outputs, φ' v = φ v

theorem refines_refl (O : Outline α) : O.Refines O :=
  ⟨rfl, fun solution => ⟨_, solution, fun _ _ => rfl⟩⟩

theorem Refines.trans {O O' O'' : Outline α} (h : O.Refines O') (h' : O'.Refines O'') :
    O.Refines O'' where
  outputs := h'.outputs.trans h.outputs
  solution solution := by
    obtain ⟨φ', solution', same⟩ := h.solution solution
    obtain ⟨φ'', solution'', same'⟩ := h'.solution solution'
    exact ⟨φ'', solution'', fun v hv => (same' v (h.outputs ▸ hv)).trans (same v hv)⟩

/-- Pruning takes away only what no operator mentions. -/
theorem refines_pruned (O : Outline α) : O.Refines O.pruned where
  outputs := rfl
  solution {bound φ} solution := by
    have payload {v : VariableId} {x : Array α} (h : O.pruned.payload? v = some x) :
        O.payload? v = some x := by
      by_cases needed : O.Needed v
      · rwa [pruned_payload? needed] at h
      · simp [payload?, pruned_tensors_none needed] at h
    refine ⟨φ, ⟨⟨fun h => solution.constant (payload h), fun {v} live unset => ?_⟩,
      solution.given, fun {o op} ho => ?_⟩, fun _ _ => rfl⟩
    · have needed : O.Needed v := pruned_needed live
      rw [pruned_shape needed]
      rw [pruned_payload? needed] at unset
      refine solution.sized ?_ unset
      obtain ⟨t, ht⟩ := live
      exact ⟨t, (pruned_tensors needed).symm.trans ht⟩
    · refine (solution.computes ho).congr (fun v hv => pruned_shape ?_) fun _ _ => rfl
      rcases hv with read | written
      · exact .inr (.inl ⟨o, op, ho, read⟩)
      · exact .inl ⟨o, op, ho, written⟩

end Outline

section

variable {rank : OperatorId → Nat} {g : Graph α} {O' : Outline α} {host last : OperatorId}
  {gone : List OperatorId} {op : Operator α} {w : VariableId}

/-- Operators that become one keep all values from before. New variables get the buffers that they
have as constants. -/
theorem Collapse.refines (h : Collapse rank g.outline O' host last gone op w) (linked : g.Linked)
    (computes : ∀ φ, g.outline.Assigned φ → O'.Assigned φ →
      (∀ c ∈ host :: gone, ∀ opc, g.operatorAt? c = some opc → g.outline.Computes φ opc) →
      op.kind.compute (op.inputs.map O'.shape) (g.outline.shape w) (op.inputs.map φ) =
        some (φ w)) : g.outline.Refines O' where
  outputs := h.outputs
  solution {bound φ} solution := by
    classical
    let φ' (v : VariableId) : Array α :=
      if g.outline.Live v then φ v
      else (O'.payload? v).getD (Array.replicate (O'.shape v).size Scalar.zero)
    have old {v : VariableId} (live : g.outline.Live v) : φ' v = φ v := if_pos live
    have new {v : VariableId} (dead : ¬g.outline.Live v) :
        φ' v = (O'.payload? v).getD (Array.replicate (O'.shape v).size Scalar.zero) := if_neg dead
    have before : g.outline.Assigned φ' := by
      refine ⟨fun payload => ?_, fun live unset => ?_⟩
      · rw [old (Outline.live_of_payload (by rw [payload]; exact (nomatch ·)))]
        exact solution.constant payload
      · rw [old live]
        exact solution.sized live unset
    have after : O'.Assigned φ' := by
      refine ⟨fun {v x} payload => ?_, fun {v} _ unset => ?_⟩
      · by_cases live : g.outline.Live v
        · exact before.constant ((h.payload?_eq live).symm.trans payload)
        · rw [new live, payload, Option.getD_some]
      · by_cases live : g.outline.Live v
        · rw [h.shape_eq live]
          exact before.sized live ((h.payload?_eq live).symm.trans unset)
        · rw [new live, unset, Option.getD_none, Array.size_replicate]
    have mentioned {c : OperatorId} {opc : Operator α} (hc : g.operatorAt? c = some opc)
        {v : VariableId} (hv : v ∈ opc.inputs ∨ v ∈ opc.outputs) : g.outline.Live v :=
      hv.elim (fun hv => linked.input_live ⟨opc, hc, hv⟩) fun hv =>
        linked.output_live ⟨opc, hc, hv⟩
    have same {c : OperatorId} {opc : Operator α} (hc : g.operatorAt? c = some opc) :
        g.outline.Computes φ' opc :=
      (solution.computes hc).congr (fun _ _ => rfl) fun v hv => old (mentioned hc hv)
    refine ⟨φ', ⟨after, fun {v x} hv found => ?_, fun {c opc} hc => ?_⟩, fun v hv => old ?_⟩
    · rw [h.inputs] at hv
      rw [old (linked.designated_live (.inl hv))]
      exact solution.given hv found
    · by_cases hg : c ∈ host :: gone
      · rcases List.mem_cons.1 hg with rfl | hg
        · cases h.operators_host.symm.trans hc
          intro u outputs
          cases h.outputs_eq.symm.trans outputs
          rw [h.shape_eq (linked.output_live h.last_writes)]
          exact computes φ' before after fun c _ opc hc => same hc
        · cases (h.operators_gone c hg).symm.trans hc
      · rw [h.operators_other c hg] at hc
        exact (same hc).congr (fun v hv => h.shape_eq (mentioned hc hv)) fun _ _ => rfl
    · exact linked.designated_live (.inr hv)

end

/-- A graph that refines another one has the same outputs for all inputs of the right sizes. -/
theorem Outline.Refines.evaluate {g g' : Graph α} (h : g.outline.Refines g'.outline)
    (tidy : g.Tidy) (tidy' : g'.Tidy) (keeps : g.outline.Keeps g'.outline)
    {inputs : List (Array α)} (fits : g.Fits inputs) :
    ∃ outputs, g.evaluate inputs = .ok outputs ∧ g'.evaluate inputs = .ok outputs := by
  obtain ⟨rank, sound⟩ := tidy.sound
  obtain ⟨rank', sound'⟩ := tidy'.sound
  have sameInputs : g'.inputs = g.inputs := keeps.inputs
  have sameOutputs : g'.outputs = g.outputs := h.outputs
  have fits' : g'.Fits inputs := by
    rw [Graph.Fits, fits, sameInputs]
    refine List.map_congr_left fun v hv => ?_
    obtain ⟨t, t', ht, ht', _, shape⟩ := keeps.designated v (.inl hv)
    rw [shape_eq, shape_eq, Outline.shape_of ht, Outline.shape_of ht', shape]
  obtain ⟨φ, solution⟩ := exists_solution tidy.linked sound fits
  obtain ⟨φ', solution', same⟩ := h.solution solution
  have bound : g.bindings inputs = g'.bindings inputs := by rw [bindings, bindings, sameInputs]
  rw [bound] at solution'
  refine ⟨g.outputs.map φ, evaluate_of_solution tidy.linked sound fits solution, ?_⟩
  rw [evaluate_of_solution tidy'.linked sound' fits' solution', sameOutputs]
  exact congrArg _ (List.map_congr_left same)

section

variable {Quiet : Outline α → OperatorId → Prop}
  {Change : (OperatorId → Nat) → Outline α → OperatorId → Outline α → Prop} {g g' : Graph α}

theorem Swept.refines (swept : Swept Quiet Change g g')
    (refines : ∀ {g : Graph α} {rank o O'}, g.Linked → g.outline.Sound rank →
      Change rank g.outline o O' → g.outline.Refines O') : g.outline.Refines g'.outline :=
  swept.stable g.outline.Refines
    (fun linked sound change before => before.trans (refines linked sound change))
    (fun O before => before.trans (Outline.refines_pruned O)) (Outline.refines_refl _)

/-- A pass whose steps refine keeps the outputs for all inputs of the right sizes. -/
theorem Swept.evaluate (swept : Swept Quiet Change g g') (tidy : g.Tidy)
    (refines : g.outline.Refines g'.outline) (inputs : List (Array α)) (fits : g.Fits inputs) :
    ∃ outputs, g.evaluate inputs = .ok outputs ∧ g'.evaluate inputs = .ok outputs :=
  refines.evaluate tidy swept.tidy swept.keeps fits

end

end TensorGraph
