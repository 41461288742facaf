import TensorGraph.Proofs.Evaluation.Assignment
import TensorGraph.Proofs.Evaluation.Inputs

/-!
# TensorGraph.Proofs.Evaluation.Reordering

Graphs that differ in the ids of their operators only.

* `Graph.Reordered`: two such graphs.
* `Outline.Sound.interpreted`, `Graph.Tidy.interpreted`: which scalars a graph is about matters to
  its checks only where they look at parameters.
* `Reordered.evaluate_eq`: a graph and a reordered one have the same values and fail together.
* `Reordered.evaluate_interpreted`: whatever the operations on scalars are, they have the same
  values.
-/

namespace TensorGraph

open TensorGraph.Graph

open Kernel (Buffer)

variable {α : Type}

/-- The variables and designations of two graphs are the same, and so are their operators up to the
ids of these. -/
structure Graph.Reordered (g g' : Graph α) : Prop where
  tensors : g'.outline.tensors = g.outline.tensors
  inputs : g'.inputs = g.inputs
  outputs : g'.outputs = g.outputs
  operators : ∀ o op, g.operatorAt? o = some op → ∃ o' op', g'.operatorAt? o' = some op' ∧
    op'.kind = op.kind ∧ op'.inputs = op.inputs ∧ op'.outputs = op.outputs
  others : ∀ o' op', g'.operatorAt? o' = some op' → ∃ o op, g.operatorAt? o = some op ∧
    op.kind = op'.kind ∧ op.inputs = op'.inputs ∧ op.outputs = op'.outputs

namespace Graph.Reordered

variable {g g' : Graph α}

theorem symm (h : g.Reordered g') : g'.Reordered g :=
  ⟨h.tensors.symm, h.inputs.symm, h.outputs.symm, h.others, h.operators⟩

theorem shape_eq (h : g.Reordered g') : g'.outline.shape = g.outline.shape :=
  funext fun _ => Outline.shape_congr (congrFun h.tensors _)

/-- Ids of variables stay, and ids of operators become those of their likes. -/
theorem renamed (h : g.Reordered g') : ∃ τ, g.outline.Renamed g'.outline id τ := by
  have likes (o : OperatorId) : ∃ o', ∀ op, g.operatorAt? o = some op → ∃ op',
      g'.operatorAt? o' = some op' ∧ op'.kind = op.kind ∧ op'.inputs = op.inputs ∧
      op'.outputs = op.outputs := by
    cases ho : g.operatorAt? o with
    | none => exact ⟨o, nofun⟩
    | some op =>
      obtain ⟨o', op', ho', same⟩ := h.operators o op ho
      exact ⟨o', fun _ e => by cases e; exact ⟨op', ho', same⟩⟩
  choose τ hτ using likes
  refine ⟨τ, fun v w _ _ same => same, fun v t ht => ?_, fun o op ho => ?_, ?_, ?_⟩
  · exact ⟨t, (congrFun h.tensors v).trans ht, rfl, rfl⟩
  · obtain ⟨op', ho', kind, inputs, outputs⟩ := hτ o op ho
    exact ⟨op', ho', kind, by rw [inputs, List.map_id], by rw [outputs, List.map_id]⟩
  · exact h.inputs.trans (List.map_id _).symm
  · exact h.outputs.trans (List.map_id _).symm

theorem misfit (h : g.Reordered g') {inputs : List (Buffer α)} {e : GraphError}
    (misfit : g.Misfit inputs e) : g'.Misfit inputs e := by
  have shapes : g'.shape = g.shape := by
    funext v
    rw [Graph.shape_eq, Graph.shape_eq, h.shape_eq]
  cases misfit with
  | count differ =>
    rw [← h.inputs] at differ ⊢
    exact .count differ
  | size before after v x same split fitting differs =>
    rw [← shapes] at fitting differs ⊢
    rw [← h.inputs] at same split
    exact .size before after v x same split fitting differs

/-- A graph and a reordered one have the same outputs, and refuse the same inputs with the same
error. -/
theorem evaluate_eq [Scalar α] (h : g.Reordered g') (tidy : g.Tidy) (tidy' : g'.Tidy)
    (inputs : List (Buffer α)) : g'.evaluate inputs = g.evaluate inputs := by
  by_cases fits : g.Fits inputs
  · obtain ⟨τ, renamed⟩ := h.renamed
    exact evaluate_renamed tidy tidy' renamed fits
  · obtain ⟨e, misfit⟩ := misfit_of_not_fits fits
    rw [evaluate_of_bindInputs_error (bindInputs_error_iff.2 misfit),
      evaluate_of_bindInputs_error (bindInputs_error_iff.2 (h.misfit misfit))]

end Graph.Reordered

/-! ## Other scalars -/

section

variable {known new : Scalar α}

/-- A sound outline stays so for other operations on scalars, if the operators still have the
shapes of their results. -/
theorem Outline.Sound.interpreted {O : Outline α} {rank : OperatorId → Nat}
    (h : @Outline.Sound α known rank O)
    (typed : ∀ o op, O.operators o = some op → ∃ v, op.outputs = [v] ∧
      @OperatorKind.outputShape α new op.kind (op.inputs.map O.shape) = .ok (O.shape v)) :
    @Outline.Sound α new rank O := by
  obtain ⟨_, computed, positive, inputs_free, sourced, used, ranked⟩ := h
  exact ⟨typed _ _, computed, positive, inputs_free, sourced, used, ranked⟩

/-- What passes its checks with some operations on scalars and can be evaluated with others passes
them with the others too. -/
theorem Graph.Tidy.interpreted {g : Graph α} (h : @Graph.Tidy α known g)
    {inputs outputs : List (Buffer α)} (run : @Graph.evaluate α new g inputs = .ok outputs) :
    @Graph.Tidy α new g := by
  obtain ⟨linked, ⟨rank, sound⟩, needed⟩ := h
  refine ⟨linked, ⟨rank, sound.interpreted fun o op ho => ?_⟩, needed⟩
  exact checkOperator_iff.1 (checkOperator_of_evaluate linked run ho)

namespace Graph.Reordered

variable {g g' : Graph α}

theorem tidy (h : g.Reordered g') (tidy' : @Graph.Tidy α known g')
    (able : @Graph.Tidy α new g) : @Graph.Tidy α new g' := by
  obtain ⟨linked, ⟨rank, sound⟩, needed⟩ := tidy'
  obtain ⟨_, typed⟩ := able.sound
  refine ⟨linked, ⟨rank, sound.interpreted fun o' op' ho' => ?_⟩, needed⟩
  obtain ⟨o, op, ho, kind, inputs, outputs⟩ := h.others o' op' ho'
  rw [h.shape_eq, ← kind, ← inputs, ← outputs]
  exact typed.result ho

theorem evaluate_ok (h : g.Reordered g') (tidy : @Graph.Tidy α known g)
    (tidy' : @Graph.Tidy α known g') {inputs outputs : List (Buffer α)}
    (run : @Graph.evaluate α new g inputs = .ok outputs) :
    @Graph.evaluate α new g' inputs = .ok outputs := by
  have able : @Graph.Tidy α new g := tidy.interpreted run
  rw [evaluate_eq h able (h.tidy tidy' able), run]

/-- Whatever the operations on scalars are, a graph and a reordered one have the same values.
Where they have none, an operator of either does not pass its check. -/
theorem evaluate_interpreted (h : g.Reordered g') (tidy : @Graph.Tidy α known g)
    (tidy' : @Graph.Tidy α known g') (inputs : List (Buffer α)) :
    (@Graph.evaluate α new g' inputs).toOption = (@Graph.evaluate α new g inputs).toOption := by
  cases run : @Graph.evaluate α new g inputs with
  | ok outputs => rw [h.evaluate_ok tidy tidy' run]
  | error e =>
    cases run' : @Graph.evaluate α new g' inputs with
    | ok outputs => cases run.symm.trans (h.symm.evaluate_ok tidy' tidy run')
    | error e' => rfl

end Graph.Reordered

end

end TensorGraph
