import Mathlib.Tactic.ByContra
import TensorGraph.Proofs.Edit.Operators
import TensorGraph.Proofs.Edit.Variables
import TensorGraph.Proofs.Graph.Validation

/-!
# TensorGraph.Proofs.Graph.Reachable

The graphs that edits make from the empty one.

* `EditCall`: a call of an edit, with any arguments.
* `Graph.Reachable`: what finitely many calls make of the empty graph, failed calls included.
* `EditCall.Effect`: what a call that succeeds makes of the outline of a graph.
* `EditCall.run_linked`: a call on a linked graph has its effect and leaves a linked graph, or it
  fails and leaves the graph it was given.
* `reachable_consistent`: in a reachable graph the links of variables and the operands of operators
  say the same, and no check blames a link.
-/

namespace TensorGraph

variable {α β γ : Type}

/-- An edit and its arguments. -/
inductive EditCall (α : Type) where
  | addVariable (name : String) (shape : Shape)
  | addConstant (name : String) (shape : Shape) (payload : Array α)
  | setPayload (v : VariableId) (payload : Array α)
  | addOperator (kind : OperatorKind α) (inputs outputs : List VariableId)
  | designateInputs (vs : List VariableId)
  | designateOutputs (vs : List VariableId)
  | removeOperator (o : OperatorId)
  | rebindOutput (o : OperatorId) (old new : VariableId)
  | replaceInput (o : OperatorId) (old new : VariableId)
  | setInputs (o : OperatorId) (inputs : List VariableId)
  | setKind (o : OperatorId) (kind : OperatorKind α)
  | prune

/-- Performs a call. -/
def EditCall.run : EditCall α → Edit α Unit
  | .addVariable name shape => discard (Edit.addVariable name shape)
  | .addConstant name shape payload => discard (Edit.addConstant name shape payload)
  | .setPayload v payload => Edit.setPayload v payload
  | .addOperator kind inputs outputs => discard (Edit.addOperator kind inputs outputs)
  | .designateInputs vs => Edit.designateInputs vs
  | .designateOutputs vs => Edit.designateOutputs vs
  | .removeOperator o => discard (Edit.removeOperator o)
  | .rebindOutput o old new => Edit.rebindOutput o old new
  | .replaceInput o old new => Edit.replaceInput o old new
  | .setInputs o inputs => Edit.setInputs o inputs
  | .setKind o kind => Edit.setKind o kind
  | .prune => discard Edit.prune

/-- The graph that an edit leaves, whether it succeeds or fails. -/
def Edit.after (e : Edit α β) (g : Graph α) : Graph α :=
  match e g with
  | .ok _ g' => g'
  | .error _ g' => g'

namespace Graph

/-- The graph is made from the empty one by calls of edits. -/
inductive Reachable : Graph α → Prop where
  | empty : Reachable .empty
  | call {g : Graph α} (c : EditCall α) : Reachable g → Reachable (c.run.after g)

/-- The graph that some calls make of a graph, one after the other. -/
def afterCalls (g : Graph α) (calls : List (EditCall α)) : Graph α :=
  calls.foldl (fun g c => c.run.after g) g

theorem Reachable.afterCalls {g : Graph α} (h : g.Reachable) (calls : List (EditCall α)) :
    (g.afterCalls calls).Reachable := by
  induction calls generalizing g with
  | nil => exact h
  | cons c rest ih => exact ih (h.call c)

end Graph

open TensorGraph.Graph Edit

/-- The outcome of an edit that does not stop halfway: it fails and leaves the graph as it was, or
it leaves a linked graph whose outline is as `P` says. -/
def Edit.Atomic (e : Edit α β) (g : Graph α) (P : Outline α → Prop) : Prop :=
  (∃ x O, Yields e g x O ∧ P O) ∨ ∃ err, e g = .error err g

theorem Edit.Atomic.discard {e : Edit α β} {g : Graph α} {P : Outline α → Prop}
    (h : Atomic e g P) : Atomic (discard e) g P := by
  rcases h with ⟨x, O, h, made⟩ | ⟨err, h⟩
  · exact .inl ⟨_, O, h.discard, made⟩
  · exact .inr ⟨err, run_discard_error h⟩

/-- What a call that succeeds finds in a graph, and what it makes of the outline. -/
def EditCall.Effect (g : Graph α) (O : Outline α) : EditCall α → Prop
  | .addVariable name shape => O = g.outline.setTensor g.freshVariable ⟨name, shape, none⟩
  | .addConstant name shape payload =>
    payload.size = shape.size ∧
      O = g.outline.setTensor g.freshVariable ⟨name, shape, some payload⟩
  | .setPayload v payload => ∃ t, g.outline.tensors v = some t ∧ payload.size = t.shape.size ∧
      (∀ o, ¬g.outline.Writes o v) ∧ O = g.outline.setTensor v { t with payload := some payload }
  | .addOperator kind inputs outputs => Addable g inputs outputs ∧
      O = g.outline.setOperator g.freshOperator (some (newOperator g kind inputs outputs))
  | .designateInputs vs =>
    (∀ v ∈ vs, ∃ x, g.variableAt? v = some x ∧ x.producer = none ∧ x.payload = none) ∧
      O = { g.outline with inputs := vs }
  | .designateOutputs vs =>
    (∀ v ∈ vs, g.outline.Live v) ∧ O = { g.outline with outputs := vs }
  | .removeOperator o => (∃ op, g.operatorAt? o = some op) ∧ O = g.outline.setOperator o none
  | .rebindOutput o old new => ∃ op, g.operatorAt? o = some op ∧ old ∈ op.outputs ∧
      g.outline.Live new ∧ (∀ p, ¬g.outline.Writes p new) ∧
      O = g.outline.setOperator o (some { op with outputs := replaceFirst old new op.outputs })
  | .replaceInput o old new => ∃ op, g.operatorAt? o = some op ∧ old ∈ op.inputs ∧
      g.outline.Live new ∧ O = g.outline.setOperator o
        (some { op with inputs := op.inputs.map fun v => if v = old then new else v })
  | .setInputs o inputs => ∃ op, g.operatorAt? o = some op ∧ (∀ v ∈ inputs, g.outline.Live v) ∧
      O = g.outline.setOperator o (some { op with inputs })
  | .setKind o kind => ∃ op, g.operatorAt? o = some op ∧
      O = g.outline.setOperator o (some { op with kind })
  | .prune => O = g.outline.pruned

/-- A call on a linked graph either succeeds, leaves a linked graph and does to the outline what it
says, or fails and leaves the graph as it was. -/
theorem EditCall.run_linked (c : EditCall α) {g : Graph α} (h : g.Linked) :
    Atomic c.run g fun O => c.Effect g O := by
  cases c with
  | addVariable name shape =>
    exact Atomic.discard (.inl ⟨_, _, addVariable_yields h name shape, rfl⟩)
  | addConstant name shape payload =>
    refine Atomic.discard ?_
    by_cases size : payload.size = shape.size
    · exact .inl ⟨_, _, addConstant_yields h name size, size, rfl⟩
    · exact .inr (addConstant_error name size)
  | setPayload v payload =>
    by_cases good : ∃ t, g.outline.tensors v = some t ∧ payload.size = t.shape.size ∧
        ∀ o, ¬g.outline.Writes o v
    · obtain ⟨t, ht, size, free⟩ := good
      exact .inl ⟨_, _, setPayload_yields h ht size free, t, ht, size, free, rfl⟩
    · refine .inr (setPayload_error h fun t ht size => ?_)
      by_contra unwritten
      exact good ⟨t, ht, size, not_exists.1 unwritten⟩
  | addOperator kind inputs outputs =>
    refine Atomic.discard ?_
    by_cases good : Addable g inputs outputs
    · exact .inl ⟨_, _, addOperator_yields h kind good, good, rfl⟩
    · exact .inr (addOperator_error kind good)
  | designateInputs vs =>
    rcases run_designateInputs (g := g) vs with ⟨run, free⟩ | error
    · refine .inl ⟨_, _, ⟨_, run, designate_linked h (fun v hv => ?_) fun v hv =>
        h.designated_live (.inr hv), rfl⟩, free, rfl⟩
      obtain ⟨x, hx, _⟩ := free v hv
      exact live_iff.2 ⟨x, hx⟩
    · exact .inr error
  | designateOutputs vs =>
    rcases run_designateOutputs (g := g) vs with ⟨run, live⟩ | error
    · exact .inl ⟨_, _, ⟨_, run, designate_linked h (fun v hv => h.designated_live (.inl hv)) live,
        rfl⟩, live, rfl⟩
    · exact .inr error
  | removeOperator o =>
    refine Atomic.discard ?_
    cases ho : g.operatorAt? o with
    | none => exact .inr (removeOperator_error ho)
    | some op => exact .inl ⟨_, _, removeOperator_yields h ho, ⟨op, ho⟩, rfl⟩
  | rebindOutput o old new =>
    by_cases good : g.outline.Live new ∧ (∀ p, ¬g.outline.Writes p new) ∧
        ∃ op, g.operatorAt? o = some op ∧ old ∈ op.outputs
    · obtain ⟨live, free, op, ho, hold⟩ := good
      exact .inl ⟨_, _, rebindOutput_yields h ho live hold free, op, ho, hold, live, free, rfl⟩
    · refine .inr (rebindOutput_error h ?_)
      by_contra bad
      simp only [not_or, not_exists, not_and, Classical.not_not] at bad
      obtain ⟨dead, free, lost, absent⟩ := bad
      obtain ⟨x, hx⟩ := Option.ne_none_iff_exists'.1 dead
      obtain ⟨op, ho⟩ := Option.ne_none_iff_exists'.1 lost
      exact good ⟨live_iff.2 ⟨x, hx⟩, free, op, ho, absent op ho⟩
  | replaceInput o old new =>
    by_cases good : g.outline.Live new ∧ ∃ op, g.operatorAt? o = some op ∧ old ∈ op.inputs
    · obtain ⟨live, op, ho, hold⟩ := good
      exact .inl ⟨_, _, replaceInput_yields h ho live hold, op, ho, hold, live, rfl⟩
    · refine .inr (replaceInput_error ?_)
      by_contra bad
      simp only [not_or, not_exists, not_and, Classical.not_not] at bad
      obtain ⟨dead, lost, absent⟩ := bad
      obtain ⟨x, hx⟩ := Option.ne_none_iff_exists'.1 dead
      obtain ⟨op, ho⟩ := Option.ne_none_iff_exists'.1 lost
      exact good ⟨live_iff.2 ⟨x, hx⟩, op, ho, absent op ho⟩
  | setInputs o inputs =>
    by_cases good : (∀ v ∈ inputs, g.outline.Live v) ∧ ∃ op, g.operatorAt? o = some op
    · obtain ⟨live, op, ho⟩ := good
      exact .inl ⟨_, _, setInputs_yields h ho live, op, ho, live, rfl⟩
    · refine .inr (setInputs_error ?_)
      by_contra bad
      simp only [not_or, not_exists, not_and] at bad
      obtain ⟨lost, dead⟩ := bad
      obtain ⟨op, ho⟩ := Option.ne_none_iff_exists'.1 lost
      refine good ⟨fun v hv => ?_, op, ho⟩
      obtain ⟨x, hx⟩ := Option.ne_none_iff_exists'.1 (dead v hv)
      exact live_iff.2 ⟨x, hx⟩
  | setKind o kind =>
    cases ho : g.operatorAt? o with
    | none => exact .inr (setKind_error ho kind)
    | some op => exact .inl ⟨_, _, setKind_yields h ho kind, op, ho, rfl⟩
  | prune =>
    obtain ⟨n, pruned⟩ := prune_yields h
    exact Atomic.discard (.inl ⟨_, _, pruned, rfl⟩)

namespace Graph

/-- Every reachable graph is linked: the empty one is, and every call keeps it so. -/
theorem Reachable.linked {g : Graph α} (h : g.Reachable) : g.Linked := by
  induction h with
  | empty => exact linked_empty
  | call c _ ih =>
    rcases c.run_linked ih with ⟨x, O, ⟨g', run, linked, _⟩, _⟩ | ⟨err, run⟩
    · rw [Edit.after, run]
      exact linked
    · rw [Edit.after, run]
      exact ih

/-- Every operand of an operator is live. The consumers of a variable are, without repetition, the
operators that have it among their inputs, and its producer is the operator that has it among its
outputs, if there is one; there is never a second one, nor is it listed twice. Payloads have the
sizes of their shapes, designated variables are live, and nodes have the ids of their slots.
So no check finds links that disagree, a payload of another size or something missing. -/
theorem reachable_consistent {g : Graph α} (h : g.Reachable) :
    (∀ o op, g.operatorAt? o = some op → op.id = o ∧ op.outputs.Nodup ∧
      ∀ v ∈ op.inputs ++ op.outputs, ∃ x, g.variableAt? v = some x) ∧
    (∀ v x, g.variableAt? v = some x → x.id = v ∧ x.consumers.Nodup ∧
      (∀ o, o ∈ x.consumers ↔ ∃ op, g.operatorAt? o = some op ∧ v ∈ op.inputs) ∧
      (∀ o, x.producer = some o ↔ ∃ op, g.operatorAt? o = some op ∧ v ∈ op.outputs) ∧
      ∀ d, x.payload = some d → d.size = x.shape.size) ∧
    (∀ o op p op' v, g.operatorAt? o = some op → g.operatorAt? p = some op' →
      v ∈ op.outputs → v ∈ op'.outputs → o = p) ∧
    (∀ v ∈ g.inputs ++ g.outputs, ∃ x, g.variableAt? v = some x) ∧
    ∀ e, g.validate = .error e →
      ∃ place flaw, e = .invalidGraph place flaw ∧ flaw.ofLinks = false := by
  have linked := h.linked
  refine ⟨fun o op ho => ⟨linked.operator_id ho, linked.outputs_nodup ho, fun v hv => ?_⟩,
    fun v x hx => linked.record hx, fun o op p op' v ho hp hv hv' => ?_, fun v hv => ?_,
    fun e he => validate_flaw linked he⟩
  · rcases List.mem_append.1 hv with hv | hv
    · exact live_iff.1 (linked.input_live ⟨op, ho, hv⟩)
    · exact live_iff.1 (linked.output_live ⟨op, ho, hv⟩)
  · exact linked.writer_unique ⟨op, ho, hv⟩ ⟨op', hp, hv'⟩
  · exact live_iff.1 (linked.designated_live (List.mem_append.1 hv))

/-- An operator that comes to read its own output, and reads it twice. -/
def selfLoop : Graph Nat :=
  afterCalls .empty
    [.addVariable "x" [2], .addVariable "y" [2],
      .addOperator (.elementwiseAdd none) [⟨0⟩, ⟨0⟩] [⟨1⟩], .replaceInput ⟨0⟩ ⟨0⟩ ⟨1⟩,
      .removeOperator ⟨7⟩, .prune]

theorem reachable_consistent_selfLoop :
    selfLoop.Reachable ∧ selfLoop.variableAt? ⟨0⟩ = none ∧
      ∃ x, selfLoop.variableAt? ⟨1⟩ = some x ∧ x.consumers.Nodup ∧
        (⟨0⟩ ∈ x.consumers ↔ ∃ op, selfLoop.operatorAt? ⟨0⟩ = some op ∧ ⟨1⟩ ∈ op.inputs) ∧
        (x.producer = some ⟨0⟩ ↔
          ∃ op, selfLoop.operatorAt? ⟨0⟩ = some op ∧ ⟨1⟩ ∈ op.outputs) := by
  have reachable : selfLoop.Reachable := Reachable.empty.afterCalls _
  obtain ⟨_, records, _⟩ := reachable_consistent reachable
  refine ⟨reachable, rfl, _, rfl, ?_⟩
  obtain ⟨_, nodup, readers, writer, _⟩ := records ⟨1⟩ _ rfl
  exact ⟨nodup, readers ⟨0⟩, writer ⟨0⟩⟩

end Graph

end TensorGraph
