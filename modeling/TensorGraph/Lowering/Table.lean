import TensorGraph.Lowering.Weights

/-!
# TensorGraph.Lowering.Table

The part of a descriptor that does not depend on the backend: the designated variables, the
table of all variables, and the layout of the weights.
-/

namespace TensorGraph

inductive VariableRole where
  | input
  | constant
  | output
  | intermediate
  deriving DecidableEq

def VariableRole.name : VariableRole → String
  | .input => "input"
  | .constant => "constant"
  | .output => "output"
  | .intermediate => "intermediate"

/-- A row of the variable table. -/
structure VariableEntry where
  id : VariableId
  name : String
  shape : Shape
  size : Nat
  role : VariableRole
  deriving DecidableEq

namespace Graph

variable {α : Type}

/-- A designated input counts as input, even if it is an output as well. -/
def role (g : Graph α) (x : Variable α) : VariableRole :=
  if g.isInput x.id then .input
  else if x.isConstant then .constant
  else if g.isOutput x.id then .output
  else .intermediate

/-- The live variables in the order of their ids. -/
def variableTable (g : Graph α) : List VariableEntry :=
  g.liveVariables.map fun x =>
    { id := x.id, name := x.name, shape := x.shape, size := x.size, role := g.role x }

end Graph

/-- What every descriptor says about a graph and its weights. -/
structure Interface where
  inputs : List VariableId
  outputs : List VariableId
  table : List VariableEntry
  weights : List WeightEntry
  weightBytes : Nat
  deriving DecidableEq

def Interface.of {α : Type} (g : Graph α) (weights : WeightBuffer α) : Interface :=
  { inputs := g.inputs
    outputs := g.outputs
    table := g.variableTable
    weights := weights.entries
    weightBytes := weights.byteLength }

end TensorGraph
