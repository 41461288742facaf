import TensorGraph.Proofs.Evaluation.Restriction
import TensorGraph.Proofs.Optimizer.Contract

/-!
# TensorGraph.Proofs.Meaning.DeadCode

What is left of a graph without its dead operators.

* `Outline.Cleared`: the operators that contribute are left, and the variables that they or the
  designations need.
* `Cleared.restricts`: what is left has all that the outputs need, so it computes the same.
* `deadCodeRemoval_means`: every graph without cycles that edits can make is cleared by the pass,
  whether or not it passes its checks, and a cleared graph stays as it is.
-/

namespace TensorGraph

open Relation (ReflTransGen)

open TensorGraph.Graph Pass

open Kernel (Buffer)

variable {α : Type}

namespace Outline

/-- `O'` is what is left of `O` without the operators that do not contribute and the variables that
nothing needs then. -/
structure Cleared (O O' : Outline α) : Prop where
  operators : ∀ o op, O'.operators o = some op ↔ O.operators o = some op ∧ O.Contributes o
  tensors : ∀ v t, O'.tensors v = some t ↔ O.tensors v = some t ∧ O'.Needed v
  inputs : O'.inputs = O.inputs
  outputs : O'.outputs = O.outputs

namespace Cleared

variable {O O' : Outline α} {o : OperatorId} {v : VariableId}

theorem writes_iff (h : O.Cleared O') : O'.Writes o v ↔ O.Writes o v ∧ O.Contributes o := by
  simp only [Writes, h.operators]
  constructor
  · rintro ⟨op, ⟨ho, live⟩, hv⟩
    exact ⟨⟨op, ho, hv⟩, live⟩
  · rintro ⟨⟨op, ho, hv⟩, live⟩
    exact ⟨op, ⟨ho, live⟩, hv⟩

theorem reads_iff (h : O.Cleared O') : O'.Reads o v ↔ O.Reads o v ∧ O.Contributes o := by
  simp only [Reads, h.operators]
  constructor
  · rintro ⟨op, ⟨ho, live⟩, hv⟩
    exact ⟨⟨op, ho, hv⟩, live⟩
  · rintro ⟨⟨op, ho, hv⟩, live⟩
    exact ⟨op, ⟨ho, live⟩, hv⟩

/-- What contributed still does: everything on the way to the output contributes too. -/
theorem contributes (h : O.Cleared O') (contributes : O.Contributes o) : O'.Contributes o := by
  obtain ⟨c, v, path, write, output⟩ := contributes
  have last : O.Contributes c := ⟨c, v, .refl, write, output⟩
  refine ⟨c, v, ?_, h.writes_iff.2 ⟨write, last⟩, h.outputs ▸ output⟩
  induction path using ReflTransGen.head_induction_on with
  | refl => exact .refl
  | @head a b step path ih =>
    have onward : O.Contributes b := ⟨c, v, path, write, output⟩
    obtain ⟨u, written, read⟩ := id step
    exact ih.head ⟨u, h.writes_iff.2 ⟨written, onward.of_precedes step⟩,
      h.reads_iff.2 ⟨read, onward⟩⟩

/-- Nothing is left that does not contribute. -/
theorem settled (h : O.Cleared O') {op : Operator α} (ho : O'.operators o = some op) :
    O'.Contributes o :=
  h.contributes ((h.operators o op).1 ho).2

theorem restricts (h : O.Cleared O') (live : ∀ {v}, O'.Needed v → O.Live v) : O.Restricts O' where
  operators {o op} ho := ((h.operators o op).1 ho).1
  tensors {v} hv := by
    obtain ⟨t, ht⟩ := live hv
    rw [ht, h.tensors]
    exact ⟨ht, hv⟩
  inputs := h.inputs
  outputs := h.outputs
  closed {o v} relevant write := by
    refine h.writes_iff.2 ⟨write, contributes_iff.2 ⟨v, write, ?_⟩⟩
    rcases relevant with ⟨c, read⟩ | output
    · obtain ⟨read, contributes⟩ := h.reads_iff.1 read
      exact .inr ⟨c, contributes, read⟩
    · exact .inl (h.outputs ▸ output)

end Cleared

/-- Taking out what does not contribute, and then pruning, clears an outline. -/
theorem cleared_without {O : Outline α} {dead : List OperatorId}
    (exact : ∀ o, o ∈ dead ↔ (∃ op, O.operators o = some op) ∧ ¬O.Contributes o) :
    O.Cleared (O.without dead).pruned where
  operators o op := by
    refine without_operators_iff.trans (and_congr_right fun ho => ?_)
    rw [exact, not_and, Classical.not_not]
    exact ⟨fun h => h ⟨op, ho⟩, fun h _ => h⟩
  tensors v t := by
    by_cases hv : (O.without dead).Needed v
    · rw [pruned_tensors hv]
      exact ⟨fun ht => ⟨ht, hv⟩, And.left⟩
    · rw [pruned_tensors_none hv]
      exact ⟨nofun, fun ⟨_, needed⟩ => absurd needed hv⟩
  inputs := rfl
  outputs := rfl

end Outline

namespace Graph

variable [Scalar α] {g : Graph α}

/-- Removing dead code from a graph without cycles leaves the operators that some output depends
on, and the variables that these and the designations need. That is all there is to remove, it does
not change what the graph computes, and in a checked graph there is nothing to remove. -/
theorem deadCodeRemoval_means (h : g.Reachable) (acyclic : ∀ o, ¬g.outline.OnCycle o) :
    ∃ report g', deadCodeRemoval.run g = .ok report g' ∧
      (∀ o op, g'.operatorAt? o = some op ↔
        g.operatorAt? o = some op ∧ g.outline.Contributes o) ∧
      (∀ v, g'.outline.Live v ↔ g'.outline.Needed v) ∧
      (∀ v, g'.outline.Live v → g'.outline.tensors v = g.outline.tensors v) ∧
      g'.inputs = g.inputs ∧ g'.outputs = g.outputs ∧
      deadCodeRemoval.run g' = .ok .nothing g' ∧
      (∀ (inputs : List (Buffer α)) outputs, g.evaluate inputs = .ok outputs →
        g'.evaluate inputs = .ok outputs) ∧
      (g.Checked → report = .nothing ∧ g' = g) := by
  have linked := h.linked
  have ranked := (ranked_iff_acyclic linked).2 acyclic
  obtain ⟨report, dead, exact, g', run, linked', outline⟩ := removeDead_yields linked ranked
  have cleared : g.outline.Cleared g'.outline := outline ▸ Outline.cleared_without exact
  have needed_iff (v : VariableId) : g'.outline.Live v ↔ g'.outline.Needed v :=
    ⟨fun ⟨t, ht⟩ => ((cleared.tensors v t).1 ht).2, linked'.needed_live⟩
  have part : g.outline.Restricts g'.outline := cleared.restricts fun {v} hv => by
    obtain ⟨t, ht⟩ := linked'.needed_live hv
    exact ⟨t, ((cleared.tensors v t).1 ht).1⟩
  refine ⟨report, g', run, cleared.operators, needed_iff,
    fun v live => part.tensors ((needed_iff v).1 live), cleared.inputs, cleared.outputs, ?_,
    fun inputs outputs evaluated => evaluate_restricted linked linked' part evaluated,
    fun checked => ?_⟩
  · obtain ⟨rank, ranked⟩ := ranked
    exact removeDead_settled linked' ⟨rank, part.ranked ranked⟩ (fun o op ho => cleared.settled ho)
      fun v live => (needed_iff v).1 live
  · cases run.symm.trans (removeDead_idle checked.tidy)
    exact ⟨rfl, rfl⟩

end Graph

/-- An output that another operator reads, a chain behind it that leads nowhere, and a variable
beside them. -/
def Graph.deadEnds : Graph Binary32 :=
  afterCalls .empty
    [.addVariable "x" [2], .addVariable "y" [2], .addVariable "t" [2], .addVariable "z" [2],
      .addVariable "u" [2], .addOperator (.activation .relu) [⟨0⟩] [⟨1⟩],
      .addOperator (.activation .relu) [⟨1⟩] [⟨2⟩],
      .addOperator (.elementwiseAdd none) [⟨2⟩, ⟨0⟩] [⟨3⟩], .designateInputs [⟨0⟩],
      .designateOutputs [⟨1⟩]]

theorem Graph.deadCodeRemoval_means_deadEnds : deadEnds.Reachable ∧
    (∀ o, ¬deadEnds.outline.OnCycle o) ∧ ∃ report g',
      deadCodeRemoval.run deadEnds = .ok report g' ∧
      (∀ o op, g'.operatorAt? o = some op ↔
        deadEnds.operatorAt? o = some op ∧ deadEnds.outline.Contributes o) ∧
      g'.operatorCount = 1 ∧ g'.variableCount = 2 ∧ deadCodeRemoval.run g' = .ok .nothing g' ∧
      deadEnds.evaluate [#[1, -2]] = .ok [#[1, 0]] ∧ g'.evaluate [#[1, -2]] = .ok [#[1, 0]] := by
  have reachable : deadEnds.Reachable := Reachable.empty.afterCalls _
  have acyclic := (ranked_iff_acyclic reachable.linked).1
    ((isCyclic_iff reachable.linked).1 (by decide))
  obtain ⟨report, g', run, left, _, _, _, _, again, same, _⟩ :=
    deadCodeRemoval_means reachable acyclic
  have value : (deadEnds.evaluate [#[1, -2]]).toOption = some [#[1, 0]] := by decide +kernel
  have counts : (match deadCodeRemoval.run deadEnds with
      | .ok _ g' => (g'.operatorCount, g'.variableCount)
      | .error _ _ => (0, 0)) = (1, 2) := by decide
  rw [run] at counts
  obtain ⟨fewer, needed⟩ := Prod.mk.inj counts
  cases evaluated : deadEnds.evaluate [#[1, -2]] with
  | error e =>
    rw [evaluated] at value
    cases value
  | ok outputs =>
    rw [evaluated] at value
    cases Option.some.inj value
    exact ⟨reachable, acyclic, report, g', run, left, fewer, needed, again, rfl,
      same _ _ evaluated⟩

end TensorGraph
