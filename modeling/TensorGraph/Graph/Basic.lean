import TensorGraph.Arena
import TensorGraph.Error
import TensorGraph.Operator.Kind

/-!
# TensorGraph.Graph.Basic

Dataflow graphs: tensors, and the operators that compute them from each other.

* `Graph`: two arenas, of variables and of operators, and the designated inputs and outputs.
* `Graph.variableAt?`, `Graph.operatorAt?`: the node of an id, if it is live.
* `Graph.singleUseConsumer?`: the one operator that reads a value, where nothing else needs it.

A variable records its producer and its consumers, and an operator its operands. The two records
say the same thing twice; the edits of `TensorGraph.Graph.Edit` keep them in step.
-/

namespace TensorGraph

/-- Element type of a tensor. -/
inductive ElementType where
  | float32
  deriving DecidableEq

namespace ElementType

def name : ElementType → String
  | .float32 => "float32"

def bytes : ElementType → Nat
  | .float32 => 4

def parse? (name : String) : Option ElementType :=
  if name = "float32" ∨ name = "f32" then some .float32 else none

end ElementType

/-- A tensor of a graph. With a payload it is a constant. -/
structure Variable (α : Type) where
  id : VariableId
  name : String
  shape : Shape
  payload : Option (Array α)
  producer : Option OperatorId
  consumers : List OperatorId

namespace Variable

variable {α : Type}

def size (v : Variable α) : Nat := v.shape.size

def isConstant (v : Variable α) : Bool := v.payload.isSome

def elementType (_ : Variable α) : ElementType := .float32

def byteLength (v : Variable α) : Nat := v.size * v.elementType.bytes

end Variable

structure Operator (α : Type) where
  id : OperatorId
  kind : OperatorKind α
  inputs : List VariableId
  outputs : List VariableId

namespace Operator

variable {α : Type}

def label (op : Operator α) : String := op.id.label op.kind.name

/-- The operator as the place of an error. -/
def place (op : Operator α) : Place := .labelled op.id op.kind.name

/-- The first operand. Every kind of operator has one. -/
def input? (op : Operator α) : Option VariableId := op.inputs.head?

end Operator

structure Graph (α : Type) where
  variableSlots : Arena (Variable α)
  operatorSlots : Arena (Operator α)
  inputs : List VariableId
  outputs : List VariableId

namespace Graph

variable {α : Type}

def empty : Graph α := ⟨.empty, .empty, [], []⟩

def variableAt? (g : Graph α) (v : VariableId) : Option (Variable α) := g.variableSlots.get? v.index

def operatorAt? (g : Graph α) (o : OperatorId) : Option (Operator α) := g.operatorSlots.get? o.index

/-- Live variables in the order of their ids. -/
def liveVariables (g : Graph α) : List (Variable α) := g.variableSlots.live

/-- Live operators in the order of their ids, which is that of their insertion. -/
def liveOperators (g : Graph α) : List (Operator α) := g.operatorSlots.live

def operatorCount (g : Graph α) : Nat := g.liveOperators.length

def variableCount (g : Graph α) : Nat := g.liveVariables.length

def isInput (g : Graph α) (v : VariableId) : Bool := g.inputs.contains v

def isOutput (g : Graph α) (v : VariableId) : Bool := g.outputs.contains v

/-- The payload of a constant. -/
def payload? (g : Graph α) (v : VariableId) : Option (Array α) := do
  (← g.variableAt? v).payload

def isConstant (g : Graph α) (v : VariableId) : Bool := (g.payload? v).isSome

def producer? (g : Graph α) (v : VariableId) : Option OperatorId := do
  (← g.variableAt? v).producer

/-- The operators that read a variable, each once. -/
def consumers (g : Graph α) (v : VariableId) : List OperatorId :=
  match g.variableAt? v with
  | some x => x.consumers
  | none => []

/-- The shape of a variable; that of a dead one is empty. -/
def shape (g : Graph α) (v : VariableId) : Shape :=
  match g.variableAt? v with
  | some x => x.shape
  | none => []

/-- How often an operator reads a variable. -/
def uses (g : Graph α) (o : OperatorId) (v : VariableId) : Nat :=
  match g.operatorAt? o with
  | some op => op.inputs.count v
  | none => 0

/-- The only operator that reads `v`, if it reads it once and `v` is not a designated output. -/
def singleUseConsumer? (g : Graph α) (v : VariableId) : Option OperatorId :=
  match g.variableAt? v with
  | none => none
  | some x =>
    match x.consumers with
    | [o] => if !g.isOutput v && g.uses o v = 1 then some o else none
    | _ => none

/-- A name for a variable derived from `base`. The number in it is the next index, so no two
derived variables share a name with the same stem. -/
def derivedName (g : Graph α) (base : VariableId) (suffix : String) : String :=
  let stem := match g.variableAt? base with
    | some x => x.name
    | none => ""
  stem ++ "_" ++ suffix ++ g.variableSlots.size.repr

end Graph

end TensorGraph
