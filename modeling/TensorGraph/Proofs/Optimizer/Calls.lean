import TensorGraph.Optimizer
import TensorGraph.Proofs.Graph.Reachable
import TensorGraph.Proofs.Pass.Canonical
import TensorGraph.Proofs.Pass.Fusion

/-!
# TensorGraph.Proofs.Optimizer.Calls

Passes change a graph by calls of edits alone, so what they make of a reachable graph is reachable:
`pass_reaches`.
-/

namespace TensorGraph

variable {α β γ : Type}

open TensorGraph.Graph Edit Pass

/-- The edit leaves a reachable graph, whether it succeeds or fails. -/
def Edit.Reaches (e : Edit α β) : Prop := ∀ g, g.Reachable → (e.after g).Reachable

namespace Edit

theorem reaches_pure (x : β) : (pure x : Edit α β).Reaches := fun _ h => h

theorem reaches_get : (get : Edit α (Graph α)).Reaches := fun _ h => h

theorem reaches_throw (e : GraphError) : (throw e : Edit α β).Reaches := fun _ h => h

theorem Reaches.bind {e : Edit α β} {k : β → Edit α γ} (h : e.Reaches)
    (hk : ∀ x, (k x).Reaches) : (e >>= k).Reaches := by
  intro g reachable
  have first := h g reachable
  rw [after, run_bind]
  rw [after] at first
  cases run : e g with
  | ok x g' =>
    rw [run] at first
    exact hk x g' first
  | error err g' =>
    rw [run] at first
    exact first

theorem after_discard (e : Edit α β) (g : Graph α) : (discard e).after g = e.after g := by
  rw [after, after]
  cases run : e g with
  | ok x g' => rw [run_discard run]
  | error err g' => rw [run_discard_error run]

theorem Reaches.discard {e : Edit α β} (h : e.Reaches) : (discard e).Reaches := by
  intro g reachable
  rw [after_discard]
  exact h g reachable

theorem reaches_call (c : EditCall α) : c.run.Reaches := fun _ h => h.call c

theorem reaches_of_discard {e : Edit α β} (h : (Functor.discard e).Reaches) :
    e.Reaches := by
  intro g reachable
  rw [← after_discard]
  exact h g reachable

theorem reaches_forM {f : β → Edit α Unit} (h : ∀ x, (f x).Reaches) (xs : List β) :
    (xs.forM f).Reaches := by
  induction xs with
  | nil => exact reaches_pure _
  | cons x xs ih => exact (h x).bind fun _ => ih

theorem reaches_addConstant (name : String) (shape : Shape) (payload : Array α) :
    (addConstant name shape payload).Reaches :=
  reaches_of_discard (reaches_call (.addConstant name shape payload))

theorem reaches_removeOperator (o : OperatorId) : (removeOperator (α := α) o).Reaches :=
  reaches_of_discard (reaches_call (.removeOperator o))

theorem reaches_setInputs (o : OperatorId) (vs : List VariableId) :
    (setInputs (α := α) o vs).Reaches := reaches_call (.setInputs o vs)

theorem reaches_setKind (o : OperatorId) (kind : OperatorKind α) : (setKind o kind).Reaches :=
  reaches_call (.setKind o kind)

theorem reaches_prune : (prune : Edit α Nat).Reaches :=
  reaches_of_discard (reaches_call .prune)

theorem reaches_absorb (p o : OperatorId) : (absorb (α := α) p o).Reaches := by
  refine (reaches_removeOperator o).bind fun removed => ?_
  split
  · next v _ w _ _ _ => exact reaches_call (.rebindOutput p v w)
  · exact reaches_pure _

end Edit

theorem schedule_reaches : (schedule : Edit α (List OperatorId)).Reaches := by
  refine reaches_get.bind fun g => ?_
  cases g.topologicalOrder with
  | ok order => exact reaches_pure order
  | error e => exact reaches_throw e

section

variable {step : Operator α → PassReport → Edit α PassReport}

theorem visit_reaches (h : ∀ op report, (step op report).Reaches) (report : PassReport)
    (order : List OperatorId) : Edit.Reaches (visit step report order) := by
  induction order generalizing report with
  | nil => exact reaches_pure report
  | cons o rest ih =>
    refine reaches_get.bind fun g => ?_
    cases g.operatorAt? o with
    | none => exact ih report
    | some op => exact (h op report).bind ih

theorem sweep_reaches (h : ∀ op report, (step op report).Reaches) : (sweep step).Reaches := by
  refine schedule_reaches.bind fun order => (visit_reaches h .nothing order).bind fun report => ?_
  unfold tidyUp
  cases report.changed with
  | true => exact reaches_prune.discard.bind fun _ => reaches_pure report
  | false => exact reaches_pure report

end

variable [Scalar α]

omit [Scalar α] in
theorem setKind_reaches (o : OperatorId) (kind : OperatorKind α) (report : PassReport) : (do
    Edit.setKind o kind
    return report : Edit α PassReport).Reaches :=
  (reaches_setKind o kind).bind fun _ => reaches_pure report

theorem canonicalConvolution_reaches (op : Operator α) (p : Convolution α) (image : ImageShape)
    (report : PassReport) : (canonicalConvolution op p image report).Reaches := by
  intro g h
  rw [after, canonicalConvolution_eq]
  cases filterSite? g op p with
  | some site =>
    obtain ⟨filter, shape, payload⟩ := site
    exact ((reaches_addConstant _ shape payload).bind fun new =>
      (reaches_call (.replaceInput op.id filter new)).bind fun _ => setKind_reaches op.id _ _) g h
  | none =>
    cases p.padding.isExplicit with
    | true => exact h
    | false => exact setKind_reaches op.id _ _ g h

theorem canonicalStep_reaches (op : Operator α) (report : PassReport) :
    (canonicalStep op report).Reaches := by
  refine reaches_get.bind fun g => ?_
  split
  · exact reaches_pure report
  · split
    · exact canonicalConvolution_reaches op _ _ report
    · unfold canonicalPooling
      split
      · exact setKind_reaches op.id _ _
      · exact reaches_pure report
    · exact reaches_pure report

theorem foldStep_reaches (op : Operator α) (report : PassReport) :
    (foldStep op report).Reaches := by
  refine reaches_get.bind fun g => ?_
  split
  · refine Reaches.bind (reaches_get.bind fun g => ?_) fun _ => reaches_pure _
    split
    · exact reaches_throw _
    · next result _ =>
      refine (reaches_removeOperator op.id).bind fun removed => ?_
      split
      · next v _ _ => exact reaches_call (.setPayload v result)
      · exact reaches_pure _
  · split
    · split
      · refine Reaches.bind (reaches_get.bind fun g => ?_) fun _ => reaches_pure _
        refine (reaches_addConstant _ _ _).bind fun s => ?_
        refine (reaches_addConstant _ _ _).bind fun t => ?_
        exact (reaches_setInputs op.id _).bind fun _ => reaches_setKind op.id _
      · exact reaches_pure report
    · exact reaches_pure report

theorem mergeStep_reaches (op : Operator α) (report : PassReport) :
    (mergeStep op report).Reaches := by
  unfold mergeStep
  split
  · refine reaches_get.bind fun g => ?_
    split
    · exact reaches_pure report
    · next inner _ =>
      split
      · exact (reaches_setInputs op.id _).bind fun _ =>
          (reaches_setKind op.id _).bind fun _ =>
            (reaches_removeOperator inner).discard.bind fun _ => reaches_pure _
      · exact reaches_pure report
  · refine reaches_get.bind fun g => ?_
    dsimp only
    split
    · exact reaches_pure report
    · exact (reaches_setInputs op.id _).bind fun _ =>
        (reaches_forM (fun n : Operator α => (reaches_removeOperator n.id).discard) _).bind fun _ =>
          reaches_pure _
  · exact reaches_pure report

theorem fuseAffineStep_reaches (op : Operator α) (report : PassReport) :
    (fuseAffineStep op report).Reaches := by
  intro g h
  rw [after, fuseAffineStep_eq]
  cases affineSite? g op with
  | none => exact h
  | some site =>
    obtain ⟨producer, operands, activation, scale, weights, bias⟩ := site
    refine Reaches.bind (e := absorbAffine op producer operands activation scale weights bias) ?_
      (fun _ => reaches_pure _) g h
    refine reaches_get.bind fun g => ?_
    refine (reaches_addConstant _ _ _).bind fun a => (reaches_addConstant _ _ _).bind fun b => ?_
    refine (reaches_setInputs producer.id _).bind fun _ => ?_
    cases activation with
    | some a => exact (reaches_setKind producer.id _).bind fun _ => reaches_absorb _ _
    | none => exact reaches_absorb _ _

omit [Scalar α] in
theorem fuseActivationStep_reaches (op : Operator α) (report : PassReport) :
    (fuseActivationStep op report).Reaches := by
  unfold fuseActivationStep
  split
  · exact reaches_pure report
  · refine reaches_get.bind fun g => ?_
    split
    · exact reaches_pure report
    · next producer _ =>
      exact (reaches_setKind producer.id _).bind fun _ =>
        (reaches_absorb _ _).bind fun _ => reaches_pure _

omit [Scalar α] in
theorem removeDead_reaches : (removeDead : Edit α PassReport).Reaches := by
  refine schedule_reaches.bind fun order => reaches_get.bind fun g => reaches_get.bind fun g' => ?_
  refine (reaches_forM (fun o => (reaches_removeOperator o).discard) _).bind fun _ => ?_
  exact reaches_prune.bind fun _ => reaches_pure _

theorem pass_reaches {p : Pass α} (hp : p ∈ Pass.all) : p.run.Reaches := by
  simp only [Pass.all, List.mem_cons, List.not_mem_nil, or_false] at hp
  rcases hp with rfl | rfl | rfl | rfl | rfl | rfl
  · exact sweep_reaches canonicalStep_reaches
  · exact sweep_reaches foldStep_reaches
  · exact sweep_reaches mergeStep_reaches
  · exact sweep_reaches fuseAffineStep_reaches
  · exact sweep_reaches fuseActivationStep_reaches
  · exact removeDead_reaches

end TensorGraph
