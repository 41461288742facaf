import TensorGraph.Proofs.Graph.Reachable

/-!
# TensorGraph.Proofs.Graph.Failure

What a failed call leaves behind.

* `EditCall.succeeds_of_effect`: a call that can have its effect on a graph succeeds.
* `failed_call_keeps`: a call fails on a reachable graph only if it can have no effect there, and
  then nothing of the graph has changed.
-/

namespace TensorGraph

variable {α : Type}

open TensorGraph.Graph Edit

/-- Whatever a call asks of a graph is part of its effect, so a call with an effect succeeds. -/
theorem EditCall.succeeds_of_effect {g : Graph α} (h : g.Linked) {c : EditCall α} {O : Outline α}
    (effect : c.Effect g O) : ∃ x, Yields c.run g x O := by
  cases c with
  | addVariable name shape =>
    cases effect
    exact ⟨_, (addVariable_yields h name shape).discard⟩
  | addConstant name shape payload =>
    obtain ⟨size, rfl⟩ := effect
    exact ⟨_, (addConstant_yields h name size).discard⟩
  | setPayload v payload =>
    obtain ⟨t, ht, size, free, rfl⟩ := effect
    exact ⟨_, setPayload_yields h ht size free⟩
  | addOperator kind inputs outputs =>
    obtain ⟨addable, rfl⟩ := effect
    exact ⟨_, (addOperator_yields h kind addable).discard⟩
  | designateInputs vs =>
    obtain ⟨free, rfl⟩ := effect
    have live (v : VariableId) (hv : v ∈ vs) : g.outline.Live v := by
      obtain ⟨x, hx, _⟩ := free v hv
      exact live_iff.2 ⟨x, hx⟩
    exact ⟨_, _, designateInputs_ok free,
      designate_linked h live fun v hv => h.designated_live (.inr hv), rfl⟩
  | designateOutputs vs =>
    obtain ⟨live, rfl⟩ := effect
    exact ⟨_, _, designateOutputs_ok live,
      designate_linked h (fun v hv => h.designated_live (.inl hv)) live, rfl⟩
  | removeOperator o =>
    obtain ⟨⟨op, ho⟩, rfl⟩ := effect
    exact ⟨_, (removeOperator_yields h ho).discard⟩
  | rebindOutput o old new =>
    obtain ⟨op, ho, hold, live, free, rfl⟩ := effect
    exact ⟨_, rebindOutput_yields h ho live hold free⟩
  | replaceInput o old new =>
    obtain ⟨op, ho, hold, live, rfl⟩ := effect
    exact ⟨_, replaceInput_yields h ho live hold⟩
  | setInputs o inputs =>
    obtain ⟨op, ho, live, rfl⟩ := effect
    exact ⟨_, setInputs_yields h ho live⟩
  | setKind o kind =>
    obtain ⟨op, ho, rfl⟩ := effect
    exact ⟨_, setKind_yields h ho kind⟩
  | prune =>
    cases effect
    obtain ⟨n, pruned⟩ := prune_yields h
    exact ⟨_, pruned.discard⟩

namespace Graph

/-- A call that fails on a reachable graph leaves the graph as it was, with its arenas, operands,
links and designations. It fails only where it can have no effect. -/
theorem failed_call_keeps {g g' : Graph α} (h : g.Reachable) (c : EditCall α) {e : GraphError}
    (fails : c.run g = .error e g') : g' = g ∧ ∀ O, ¬c.Effect g O := by
  constructor
  · rcases c.run_linked h.linked with ⟨_, _, ⟨_, run, _⟩, _⟩ | ⟨_, run⟩
    · cases run.symm.trans fails
    · cases run.symm.trans fails
      rfl
  · intro O effect
    obtain ⟨_, _, run, _⟩ := c.succeeds_of_effect h.linked effect
    cases run.symm.trans fails

/-- An operand that was pruned away stops the replacement of all operands, the live one included. -/
theorem failed_call_keeps_prunedOperand : selfLoop.Reachable ∧
    ∃ e, (EditCall.setInputs ⟨0⟩ [⟨1⟩, ⟨0⟩]).run selfLoop = .error e selfLoop ∧
      ∀ O, ¬(EditCall.setInputs ⟨0⟩ [⟨1⟩, ⟨0⟩]).Effect selfLoop O := by
  have reachable : selfLoop.Reachable := Reachable.empty.afterCalls _
  cases run : (EditCall.setInputs ⟨0⟩ [⟨1⟩, ⟨0⟩]).run selfLoop with
  | ok u g' => cases run
  | error e g' =>
    obtain ⟨rfl, none⟩ := failed_call_keeps reachable (.setInputs ⟨0⟩ [⟨1⟩, ⟨0⟩]) run
    exact ⟨reachable, e, rfl, none⟩

end Graph

end TensorGraph
