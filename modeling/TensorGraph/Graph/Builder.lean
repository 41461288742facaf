import TensorGraph.Graph.Edit
import TensorGraph.Graph.Validity

/-!
# TensorGraph.Graph.Builder

Graphs put together operator by operator, with the shape of every result inferred.

* `Builder.input`, `Builder.constant`, `Builder.operator`: add a node and give its variable.
* `Builder.finish`: the finished graph, valid and without unused variables.

A step that fails leaves the builder as it was, apart from the nodes that it had added.
-/

namespace TensorGraph

/-- A graph under construction: the variables to become its inputs, and the number of results
named so far. -/
structure Builder (α : Type) where
  graph : Graph α
  inputs : List VariableId
  results : Nat

namespace Builder

variable {α : Type}

abbrev Step (α β : Type) := EStateM GraphError (Builder α) β

def empty : Builder α := ⟨.empty, [], 0⟩

/-- Runs an edit of the graph. -/
def edit {β : Type} (e : Edit α β) : Step α β := fun b =>
  match e b.graph with
  | .ok x g => .ok x { b with graph := g }
  | .error err g => .error err { b with graph := g }

def input (name : String) (shape : Shape) : Step α VariableId := do
  let v ← edit (Edit.addVariable name shape)
  modify fun b => { b with inputs := b.inputs ++ [v] }
  return v

def constant (name : String) (shape : Shape) (payload : Array α) : Step α VariableId :=
  edit (Edit.addConstant name shape payload)

/-- A constant with the value `f i` at every row-major index `i`. -/
def constantOf (name : String) (shape : Shape) (f : Nat → α) : Step α VariableId :=
  constant name shape ((List.range shape.size).map f).toArray

variable [Scalar α]

/-- Adds an operator with one result. -/
def operator (kind : OperatorKind α) (inputs : List VariableId) : Step α VariableId := do
  let shapes ← inputs.mapM fun v => do
    match (← get).graph.variableAt? v with
    | some x => pure x.shape
    | none => throw (.atVariable v .unknownOperand)
  match kind.outputShape shapes with
  | .error flaw => throw (.shapeMismatch (.named kind.name) flaw)
  | .ok shape =>
    let name := "t" ++ (← get).results.repr
    modify fun b => { b with results := b.results + 1 }
    let out ← edit (Edit.addVariable name shape)
    let _ ← edit (Edit.addOperator kind inputs [out])
    return out

/-- The graph with the given outputs. -/
def finish (b : Builder α) (outputs : List VariableId) : Except GraphError (Graph α) :=
  let complete : Edit α Unit := do
    Edit.designateInputs b.inputs
    Edit.designateOutputs outputs
    discard Edit.prune
  match complete b.graph with
  | .error err _ => .error err
  | .ok _ g =>
    match g.validate with
    | .error err => .error err
    | .ok _ => .ok g

end Builder

end TensorGraph
