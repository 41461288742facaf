/-!
# TensorGraph.Graph.Id

Names of the nodes of a graph: the indices of their slots.
-/

namespace TensorGraph

structure VariableId where
  index : Nat
  deriving DecidableEq

structure OperatorId where
  index : Nat
  deriving DecidableEq

def VariableId.text (v : VariableId) : String := "v" ++ v.index.repr

def OperatorId.text (o : OperatorId) : String := "op" ++ o.index.repr

/-- Name of an operator together with what it computes, as in `op3(relu)`. -/
def OperatorId.label (o : OperatorId) (kind : String) : String := o.text ++ "(" ++ kind ++ ")"

end TensorGraph
