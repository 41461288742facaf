import TensorGraph.Graph.Basic

/-!
# TensorGraph.Proofs.Graph.Linked

The two records of a graph, told apart.

* `Outline`: what a graph says once: its tensors, its operators and its designations.
* `Graph.Linked`: the links of the variables say the same as the operands of the operators, and
  whatever an operand or a designation names is live.
* `linked_empty`: the empty graph is linked.

In a linked graph the links follow from the outline, so later statements are about outlines.
-/

namespace TensorGraph

variable {α : Type}

/-- A variable without its id and its links. -/
structure Tensor (α : Type) where
  name : String
  shape : Shape
  payload : Option (Array α)

def Variable.tensor (x : Variable α) : Tensor α := ⟨x.name, x.shape, x.payload⟩

/-- A graph without the links of its variables. -/
structure Outline (α : Type) where
  tensors : VariableId → Option (Tensor α)
  operators : OperatorId → Option (Operator α)
  inputs : List VariableId
  outputs : List VariableId

namespace Outline

def Live (O : Outline α) (v : VariableId) : Prop := ∃ t, O.tensors v = some t

/-- `v` is an operand of the live operator `o`. -/
def Reads (O : Outline α) (o : OperatorId) (v : VariableId) : Prop :=
  ∃ op, O.operators o = some op ∧ v ∈ op.inputs

/-- `v` is an output of the live operator `o`. -/
def Writes (O : Outline α) (o : OperatorId) (v : VariableId) : Prop :=
  ∃ op, O.operators o = some op ∧ v ∈ op.outputs

def setTensor (O : Outline α) (v : VariableId) (t : Tensor α) : Outline α :=
  { O with tensors := fun w => if w = v then some t else O.tensors w }

/-- Replaces an operator, or takes it out. -/
def setOperator (O : Outline α) (o : OperatorId) (op : Option (Operator α)) : Outline α :=
  { O with operators := fun p => if p = o then op else O.operators p }

/-- The outline without some operators. -/
def without (O : Outline α) (ids : List OperatorId) : Outline α :=
  { O with operators := fun p => if p ∈ ids then none else O.operators p }

@[simp] theorem setTensor_tensors (O : Outline α) (v w : VariableId) (t : Tensor α) :
    (O.setTensor v t).tensors w = if w = v then some t else O.tensors w := rfl

@[simp] theorem setTensor_operators (O : Outline α) (v : VariableId) (t : Tensor α) :
    (O.setTensor v t).operators = O.operators := rfl

@[simp] theorem setTensor_inputs (O : Outline α) (v : VariableId) (t : Tensor α) :
    (O.setTensor v t).inputs = O.inputs := rfl

@[simp] theorem setTensor_outputs (O : Outline α) (v : VariableId) (t : Tensor α) :
    (O.setTensor v t).outputs = O.outputs := rfl

@[simp] theorem setOperator_operators (O : Outline α) (o p : OperatorId)
    (op : Option (Operator α)) :
    (O.setOperator o op).operators p = if p = o then op else O.operators p := rfl

@[simp] theorem setOperator_tensors (O : Outline α) (o : OperatorId) (op : Option (Operator α)) :
    (O.setOperator o op).tensors = O.tensors := rfl

@[simp] theorem setOperator_inputs (O : Outline α) (o : OperatorId) (op : Option (Operator α)) :
    (O.setOperator o op).inputs = O.inputs := rfl

@[simp] theorem setOperator_outputs (O : Outline α) (o : OperatorId) (op : Option (Operator α)) :
    (O.setOperator o op).outputs = O.outputs := rfl

theorem setOperator_setOperator (O : Outline α) (o : OperatorId) (x y : Option (Operator α)) :
    (O.setOperator o x).setOperator o y = O.setOperator o y := by
  unfold setOperator
  congr 1
  funext p
  by_cases e : p = o <;> simp [e]

theorem setOperator_comm (O : Outline α) {o p : OperatorId} (ne : o ≠ p)
    (x y : Option (Operator α)) :
    (O.setOperator o x).setOperator p y = (O.setOperator p y).setOperator o x := by
  unfold setOperator
  congr 1
  funext q
  by_cases e : q = o
  · simp [e, ne]
  · simp [e]

theorem without_operators_iff {O : Outline α} {ids : List OperatorId} {o : OperatorId}
    {op : Operator α} :
    (O.without ids).operators o = some op ↔ O.operators o = some op ∧ o ∉ ids := by
  show (if o ∈ ids then none else O.operators o) = some op ↔ _
  split
  · next h => exact ⟨nofun, fun ⟨_, fresh⟩ => absurd h fresh⟩
  · next h => exact ⟨fun ho => ⟨ho, h⟩, And.left⟩

end Outline

namespace Graph

def outline (g : Graph α) : Outline α :=
  { tensors := fun v => (g.variableAt? v).map Variable.tensor
    operators := g.operatorAt?
    inputs := g.inputs
    outputs := g.outputs }

@[simp] theorem outline_operators (g : Graph α) (o : OperatorId) :
    g.outline.operators o = g.operatorAt? o := rfl

@[simp] theorem outline_inputs (g : Graph α) : g.outline.inputs = g.inputs := rfl

@[simp] theorem outline_outputs (g : Graph α) : g.outline.outputs = g.outputs := rfl

theorem outline_tensors (g : Graph α) (v : VariableId) :
    g.outline.tensors v = (g.variableAt? v).map Variable.tensor := rfl

theorem outline_tensors_of {g : Graph α} {v : VariableId} {x : Variable α}
    (hx : g.variableAt? v = some x) : g.outline.tensors v = some x.tensor := by
  rw [outline_tensors, hx]; rfl

theorem live_iff {g : Graph α} {v : VariableId} :
    g.outline.Live v ↔ ∃ x, g.variableAt? v = some x := by
  simp only [Outline.Live, outline_tensors, Option.map_eq_some_iff]
  constructor
  · rintro ⟨_, x, hx, _⟩
    exact ⟨x, hx⟩
  · rintro ⟨x, hx⟩
    exact ⟨_, x, hx, rfl⟩

/-- Nodes have the ids of their slots, operands and designations name live variables, payloads
have the sizes of their shapes, and the links of a variable list exactly its producer and its
readers, every reader once. -/
structure Linked (g : Graph α) : Prop where
  variable_id : ∀ {v x}, g.variableAt? v = some x → x.id = v
  operator_id : ∀ {o op}, g.operatorAt? o = some op → op.id = o
  input_live : ∀ {o v}, g.outline.Reads o v → g.outline.Live v
  output_live : ∀ {o v}, g.outline.Writes o v → g.outline.Live v
  outputs_nodup : ∀ {o op}, g.operatorAt? o = some op → op.outputs.Nodup
  consumers_nodup : ∀ {v x}, g.variableAt? v = some x → x.consumers.Nodup
  mem_consumers : ∀ {v x}, g.variableAt? v = some x →
    ∀ o, o ∈ x.consumers ↔ g.outline.Reads o v
  producer_iff : ∀ {v x}, g.variableAt? v = some x →
    ∀ o, x.producer = some o ↔ g.outline.Writes o v
  payload_size : ∀ {v x}, g.variableAt? v = some x → ∀ d ∈ x.payload, d.size = x.size
  designated_live : ∀ {v}, v ∈ g.inputs ∨ v ∈ g.outputs → g.outline.Live v

namespace Linked

variable {g : Graph α}

/-- No variable is an output of two operators. -/
theorem writer_unique (h : g.Linked) {o p : OperatorId} {v : VariableId}
    (ho : g.outline.Writes o v) (hp : g.outline.Writes p v) : o = p := by
  obtain ⟨x, hx⟩ := live_iff.1 (h.output_live ho)
  have eo := (h.producer_iff hx o).2 ho
  have ep := (h.producer_iff hx p).2 hp
  exact Option.some.inj (eo.symm.trans ep)

end Linked

theorem linked_empty : (empty : Graph α).Linked where
  variable_id h := nomatch h
  operator_id h := nomatch h
  input_live := fun ⟨_, h, _⟩ => nomatch h
  output_live := fun ⟨_, h, _⟩ => nomatch h
  outputs_nodup h := nomatch h
  consumers_nodup h := nomatch h
  mem_consumers h := nomatch h
  producer_iff h := nomatch h
  payload_size h := nomatch h
  designated_live h := by rcases h with h | h <;> cases h

end Graph

end TensorGraph
