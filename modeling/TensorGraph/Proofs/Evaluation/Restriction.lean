import TensorGraph.Proofs.Evaluation.Inputs

/-!
# TensorGraph.Proofs.Evaluation.Restriction

Evaluation of a part of a graph.

* `Graph.Settled`: the values at the end of a run, told without the order of the run. Nothing is
  asked of the graph, so it may be unchecked, and an input of it may be computed as well.
* `Outline.Restricts`: an outline keeps some operators of another one, with all that these and the
  outputs need.
* `evaluate_restricted`: what is left computes the outputs that were computed before.
-/

namespace TensorGraph

open Kernel (Buffer)

variable {α β γ : Type}

/-! ## Parts of outlines -/

/-- `O'` keeps some operators of `O` and the tensors that are still needed. Whatever computes a
value that is still read, or an output, is among the operators kept. -/
structure Outline.Restricts (O O' : Outline α) : Prop where
  operators : ∀ {o op}, O'.operators o = some op → O.operators o = some op
  tensors : ∀ {v}, O'.Needed v → O'.tensors v = O.tensors v
  inputs : O'.inputs = O.inputs
  outputs : O'.outputs = O.outputs
  closed : ∀ {o v}, (∃ c, O'.Reads c v) ∨ v ∈ O'.outputs → O.Writes o v → O'.Writes o v

namespace Outline.Restricts

variable {O O' : Outline α}

theorem reads (h : O.Restricts O') {o : OperatorId} {v : VariableId} (hr : O'.Reads o v) :
    O.Reads o v := by
  obtain ⟨op, ho, hv⟩ := hr
  exact ⟨op, h.operators ho, hv⟩

theorem writes (h : O.Restricts O') {o : OperatorId} {v : VariableId} (hw : O'.Writes o v) :
    O.Writes o v := by
  obtain ⟨op, ho, hv⟩ := hw
  exact ⟨op, h.operators ho, hv⟩

theorem ranked (h : O.Restricts O') {rank : OperatorId → Nat} (ranked : O.Ranked rank) :
    O'.Ranked rank := by
  rintro a b ⟨v, hw, hr⟩
  exact ranked a b ⟨v, h.writes hw, h.reads hr⟩

end Outline.Restricts

namespace Graph

variable {g g' : Graph α} {inputs : List (Buffer α)}

theorem shape_of_part (h : g.outline.Restricts g'.outline) {v : VariableId}
    (hv : g'.outline.Needed v) : g'.shape v = g.shape v := by
  rw [shape_eq, shape_eq, Outline.shape_congr (h.tensors hv)]

theorem payload?_of_part (h : g.outline.Restricts g'.outline) {v : VariableId}
    (hv : g'.outline.Needed v) : g'.payload? v = g.payload? v := by
  rw [payload?_eq, payload?_eq, Outline.payload?_congr (h.tensors hv)]

/-- A part of a graph takes the same buffers for its inputs. -/
theorem bindInputs_of_part (h : g.outline.Restricts g'.outline) {values : Valuation α}
    (bound : g.bindInputs inputs = .ok values) : g'.bindInputs inputs = .ok values := by
  have same : g'.inputs = g.inputs := h.inputs
  have fits := fits_of_bound bound
  have fits' : g'.Fits inputs := by
    refine fits.trans ?_
    rw [same]
    refine List.map_congr_left fun v hv => ?_
    have needed : g'.outline.Needed v := .inr (.inr (.inl (h.inputs ▸ hv)))
    rw [shape_of_part h needed]
  have pairs := bindInputs_ok fits'
  rw [same] at pairs
  exact pairs.trans ((bindInputs_ok fits).symm.trans bound)

variable [Scalar α]

/-- Whether an operator passes its check, and what it computes, depends on the shapes of its own
variables only. -/
theorem evaluateOperator_congr {op : Operator α} {operands : List (Buffer α)}
    (same : ∀ v, v ∈ op.inputs ∨ v ∈ op.outputs → g'.shape v = g.shape v) :
    g'.evaluateOperator op operands = g.evaluateOperator op operands := by
  have shapes : op.inputs.map g'.shape = op.inputs.map g.shape :=
    List.map_congr_left fun v hv => same v (.inl hv)
  have checked : g'.checkOperator op = g.checkOperator op := by
    simp only [checkOperator, inferredShape, shapes]
    rcases outputs : op.outputs with _ | ⟨w, _ | ⟨u, rest⟩⟩
    · rfl
    · simp only [same w (.inr (outputs ▸ List.mem_cons_self))]
    · rfl
  simp only [evaluateOperator, checked, shapes]
  rcases outputs : op.outputs with _ | ⟨w, rest⟩
  · rfl
  · simp only [same w (.inr (outputs ▸ List.mem_cons_self))]

/-! ## Values at the end of a run -/

/-- The values are those bound to the inputs where no operator writes, and elsewhere what the
operator that writes there makes of the values of its operands. -/
structure Settled (g : Graph α) (bound values : Valuation α) : Prop where
  unwritten : ∀ {v}, (∀ o, ¬g.outline.Writes o v) → values.lookup v = bound.lookup v
  computed : ∀ {o op}, g.operatorAt? o = some op → ∃ w operands r, op.outputs = [w] ∧
    op.inputs.mapM (g.valueOf values) = .ok operands ∧
    g.evaluateOperator op operands = .ok r ∧ values.lookup w = some r

omit [Scalar α] in
theorem valueOf_congr {values values' : Valuation α} {v : VariableId}
    (same : values'.lookup v = values.lookup v) : g.valueOf values' v = g.valueOf values v := by
  simp only [valueOf, same]

/-- A step that succeeds is that of a live operator with one output. -/
theorem evaluateStep_ok {o : OperatorId} {values values' : Valuation α}
    (step : g.evaluateStep values o = .ok values') : ∃ op w operands r,
      g.operatorAt? o = some op ∧ op.outputs = [w] ∧
      op.inputs.mapM (g.valueOf values) = .ok operands ∧
      g.evaluateOperator op operands = .ok r ∧ values' = (w, r) :: values := by
  cases ho : g.operatorAt? o with
  | none =>
    simp only [evaluateStep, ho] at step
    cases step
  | some op =>
    have alone : [o].foldlM g.evaluateStep values = .ok values' := by
      rw [List.foldlM_cons, step]
      rfl
    have checked := checkOperator_of_steps alone o (List.mem_singleton_self o) op ho
    obtain ⟨w, outputs, _⟩ := checkOperator_iff.1 checked
    obtain ⟨operands, r, read, run, rfl⟩ := (evaluateStep_ok_iff ho outputs).1 step
    exact ⟨op, w, operands, r, rfl, outputs, read, run, rfl⟩

/-- A run changes the values of what its operators write, and no others. -/
theorem lookup_of_steps {os : List OperatorId} {values values' : Valuation α}
    (run : os.foldlM g.evaluateStep values = .ok values') {v : VariableId}
    (unwritten : ∀ o ∈ os, ¬g.outline.Writes o v) : values'.lookup v = values.lookup v := by
  induction os generalizing values with
  | nil =>
    cases run
    rfl
  | cons o os ih =>
    rw [List.foldlM_cons] at run
    obtain ⟨values₁, step, run⟩ := except_bind_ok_iff.1 run
    obtain ⟨op, w, _, r, ho, outputs, _, _, rfl⟩ := evaluateStep_ok step
    obtain ⟨first, rest⟩ := List.forall_mem_cons.1 unwritten
    have ne : v ≠ w := fun e => first ⟨op, ho, by rw [outputs, e]; exact List.mem_singleton_self w⟩
    rw [ih run rest, List.lookup_cons, beq_eq_false_iff_ne.2 ne]

/-- In dependency order no operator writes what it or an earlier one has read, so what each of them
computed agrees with the values at the end. -/
theorem settled_of_run (h : g.Linked) {order : List OperatorId} (sorted : g.outline.Sorted order)
    {bound values : Valuation α} (run : order.foldlM g.evaluateStep bound = .ok values) :
    g.Settled bound values where
  unwritten free := lookup_of_steps run fun o _ => free o
  computed {o op} ho := by
    obtain ⟨earlier, later, e⟩ := List.append_of_mem ((sorted.mem_iff o).2 ⟨op, ho⟩)
    have before := sorted.closed earlier o later e
    have nodup := e ▸ sorted.nodup
    have fresh : o ∉ later := (List.nodup_cons.1 (List.nodup_append.1 nodup).2.1).1
    rw [e, List.foldlM_append] at run
    obtain ⟨values₁, _, run⟩ := except_bind_ok_iff.1 run
    rw [List.foldlM_cons] at run
    obtain ⟨values₂, step, rest⟩ := except_bind_ok_iff.1 run
    obtain ⟨op', w, operands, r, ho', outputs, read, result, rfl⟩ := evaluateStep_ok step
    cases ho.symm.trans ho'
    have write : g.outline.Writes o w := ⟨op, ho, outputs ▸ List.mem_singleton_self w⟩
    have done : values.lookup w = some r := by
      rw [lookup_of_steps rest fun p hp hw => fresh (h.writer_unique write hw ▸ hp)]
      exact List.lookup_cons_self
    refine ⟨w, operands, r, outputs, ?_, result, done⟩
    rw [← read]
    refine Kernel.mapM_congr (List.forall₂_same.2 fun u hu => valueOf_congr ?_)
    have onwards : (o :: later).foldlM g.evaluateStep values₁ = .ok values := by
      rw [List.foldlM_cons, step]
      exact rest
    refine lookup_of_steps onwards fun p hp hw => ?_
    have early : p ∈ earlier := before p ⟨u, hw, op, ho, hu⟩
    exact (List.nodup_append.1 nodup).2.2 p early p hp rfl

/-! ## The run of a part -/

/-- The values computed so far are those at the end of the run of the whole graph, wherever nothing
is left to write. -/
def Following (g : Graph α) (values : Valuation α) (done : List OperatorId)
    (values' : Valuation α) : Prop :=
  ∀ v, (∀ o, g.outline.Writes o v → o ∈ done) → values'.lookup v = values.lookup v

variable {bound values values' : Valuation α}

omit [Scalar α] in
theorem Following.valueOf {done : List OperatorId} (h : g.Following values done values')
    (part : g.outline.Restricts g'.outline) {v : VariableId}
    (relevant : (∃ c, g'.outline.Reads c v) ∨ v ∈ g'.outputs)
    (written : ∀ o, g.outline.Writes o v → o ∈ done) :
    g'.valueOf values' v = g.valueOf values v := by
  have payload := payload?_of_part part (.inr (relevant.imp_right .inr))
  simp only [Graph.valueOf, payload, h v written]

/-- An operator of the part finds the operands that it had in the whole graph. -/
theorem Following.step (part : g.outline.Restricts g'.outline) (settled : g.Settled bound values)
    {done : List OperatorId} (h : g.Following values done values') {o : OperatorId}
    {op : Operator α} (ho : g'.operatorAt? o = some op)
    (before : ∀ a, g'.outline.Precedes a o → a ∈ done) :
    ∃ values'', g'.evaluateStep values' o = .ok values'' ∧
      g.Following values (done ++ [o]) values'' := by
  have ho' : g.operatorAt? o = some op := part.operators ho
  obtain ⟨w, operands, r, outputs, read, run, result⟩ := settled.computed ho'
  have same : op.inputs.mapM (g'.valueOf values') = op.inputs.mapM (g.valueOf values) := by
    refine Kernel.mapM_congr (List.forall₂_same.2 fun u hu => ?_)
    have reads : g'.outline.Reads o u := ⟨op, ho, hu⟩
    exact h.valueOf part (.inl ⟨o, reads⟩) fun a hw =>
      before a ⟨u, part.closed (.inl ⟨o, reads⟩) hw, reads⟩
  have own : g'.evaluateOperator op operands = g.evaluateOperator op operands := by
    refine evaluateOperator_congr fun v hv => shape_of_part part ?_
    rcases hv with hv | hv
    · exact .inr (.inl ⟨o, op, ho, hv⟩)
    · exact .inl ⟨o, op, ho, hv⟩
  refine ⟨(w, r) :: values', (evaluateStep_ok_iff ho outputs).2
    ⟨operands, r, same.trans read, own.trans run, rfl⟩, fun v written => ?_⟩
  by_cases e : v = w
  · rw [e, List.lookup_cons_self, result]
  · rw [List.lookup_cons, beq_eq_false_iff_ne.2 e]
    refine h v fun a hw => ?_
    rcases List.mem_append.1 (written a hw) with ha | ha
    · exact ha
    · cases List.mem_singleton.1 ha
      rw [Outline.writes_iff ho', outputs] at hw
      exact absurd (List.mem_singleton.1 hw) e

theorem Following.run (part : g.outline.Restricts g'.outline) (settled : g.Settled bound values)
    {order : List OperatorId} (sorted : g'.outline.Sorted order) {done rest : List OperatorId}
    (e : order = done ++ rest) (h : g.Following values done values') :
    ∃ values'', rest.foldlM g'.evaluateStep values' = .ok values'' ∧
      g.Following values order values'' := by
  induction rest generalizing done values' with
  | nil =>
    rw [List.append_nil] at e
    exact ⟨values', rfl, e ▸ h⟩
  | cons o rest ih =>
    have mem : o ∈ order := e ▸ List.mem_append_right _ List.mem_cons_self
    obtain ⟨op, ho⟩ := (sorted.mem_iff o).1 mem
    obtain ⟨values₁, step, h₁⟩ := h.step part settled ho (sorted.closed done o rest e)
    rw [List.foldlM_cons, except_bind_ok step]
    exact ih (by rw [e, List.append_assoc, List.singleton_append]) h₁

/-- Whatever a graph computes, a part of it that has all that the outputs need computes too. -/
theorem evaluate_restricted (h : g.Linked) (h' : g'.Linked)
    (part : g.outline.Restricts g'.outline) {outputs : List (Buffer α)}
    (evaluated : g.evaluate inputs = .ok outputs) : g'.evaluate inputs = .ok outputs := by
  obtain ⟨bound, binding, evaluated⟩ := except_bind_ok_iff.1 evaluated
  obtain ⟨order, found, evaluated⟩ := except_bind_ok_iff.1 evaluated
  obtain ⟨values, run, read⟩ := except_bind_ok_iff.1 evaluated
  have sorted := topologicalOrder_sorted h found
  have settled := settled_of_run h sorted run
  obtain ⟨order', found'⟩ := topologicalOrder_of_ranked h' (part.ranked sorted.ranked)
  have sorted' := topologicalOrder_sorted h' found'
  have start : g.Following values [] bound := fun v unwritten =>
    (settled.unwritten fun o hw => nomatch unwritten o hw).symm
  obtain ⟨values', run', follows⟩ :=
    start.run part settled sorted' (List.nil_append order').symm
  rw [evaluate, except_bind_ok (bindInputs_of_part part binding), except_bind_ok found',
    except_bind_ok run']
  have same : g'.outputs = g.outputs := part.outputs
  rw [same, ← read]
  refine Kernel.mapM_congr (List.forall₂_same.2 fun v hv => ?_)
  have output : v ∈ g'.outputs := same ▸ hv
  refine follows.valueOf part (.inr output) fun o hw => ?_
  obtain ⟨op, ho, _⟩ := part.closed (.inr output) hw
  exact (sorted'.mem_iff o).2 ⟨op, ho⟩

end Graph

end TensorGraph
