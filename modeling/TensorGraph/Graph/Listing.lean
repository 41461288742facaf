import TensorGraph.Graph.Dependency

/-!
# TensorGraph.Graph.Listing

Texts that show a graph.

* `Graph.listing`: a line per operator, constants marked by a star.
* `Graph.dot`: the dependencies of the operators as a drawing for Graphviz.
-/

namespace TensorGraph

/-- A string between quotes for Graphviz, with a backslash before quotes and backslashes. -/
def dotQuoted (s : String) : String :=
  let escaped := s.toList.flatMap fun c => if c = '"' || c = '\\' then ['\\', c] else [c]
  "\"" ++ .ofList escaped ++ "\""

namespace Digraph

/-- Nodes by position, then edges in the order in which they were added. -/
def dot (d : Digraph) : String :=
  let nodes := d.labels.mapIdx fun i label =>
    "    " ++ i.repr ++ " [ label = " ++ dotQuoted ("\"" ++ label ++ "\"") ++ " ]\n"
  let edges := d.edges.map fun (a, b) => "    " ++ a.repr ++ " -> " ++ b.repr ++ " [ ]\n"
  "digraph \x7b\n" ++ String.join nodes ++ String.join edges ++ "\x7d\n"

end Digraph

namespace Graph

variable {α : Type}

/-- Variables with their shapes, as in `v0[1, 4], v1*[2, 4]`. -/
def variableList (g : Graph α) (vs : List VariableId) : String :=
  ", ".intercalate (vs.map fun v =>
    v.text ++ (if g.isConstant v then "*" else "") ++ (g.shape v).text)

def operatorLine (g : Graph α) (op : Operator α) : String :=
  g.variableList op.outputs ++ " = " ++ op.kind.name ++ "(" ++ g.variableList op.inputs ++ ")" ++
    match op.kind.fused? with
    | some a => " +" ++ a.name
    | none => ""

def listing (g : Graph α) : String :=
  let lines :=
    ["graph: " ++ g.operatorCount.repr ++ " operators, " ++ g.variableCount.repr ++ " variables",
      "inputs: " ++ g.variableList g.inputs] ++
    g.liveOperators.map g.operatorLine ++
    ["outputs: " ++ g.variableList g.outputs]
  String.join (lines.map (· ++ "\n"))

def dot (g : Graph α) : String := g.dependencies.dot

end Graph

end TensorGraph
