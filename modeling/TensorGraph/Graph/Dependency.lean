import TensorGraph.Graph.Basic

/-!
# TensorGraph.Graph.Dependency

Which operators read what other operators compute.

* `Digraph`: labelled nodes and edges between them.
* `Digraph.isCyclic`: whether some node reaches itself along edges.
* `Graph.dependencies`: an edge from each operator to every reader of one of its outputs.
-/

namespace TensorGraph

/-- Labelled nodes, and edges between the positions of two nodes, each edge once. -/
structure Digraph where
  labels : List String
  edges : List (Nat × Nat)

namespace Digraph

/-- Adds an edge unless it is there. -/
def addEdge (d : Digraph) (e : Nat × Nat) : Digraph :=
  if d.edges.contains e then d else { d with edges := d.edges ++ [e] }

/-- Strips the nodes that no edge leads into, with the edges out of them, `rounds` times. -/
def strip : Nat → List Nat → List (Nat × Nat) → List Nat
  | 0, nodes, _ => nodes
  | rounds + 1, nodes, edges =>
    let entered := nodes.filter fun n => edges.any fun (_, target) => target == n
    strip rounds entered (edges.filter fun (source, _) => entered.contains source)

/-- A graph is cyclic when stripping, as often as it has nodes, leaves some of them. -/
def isCyclic (d : Digraph) : Bool :=
  !(strip d.labels.length (List.range d.labels.length) d.edges).isEmpty

end Digraph

namespace Graph

variable {α : Type}

/-- Position of an operator among the live ones. -/
def position? (g : Graph α) (o : OperatorId) : Option Nat :=
  g.liveOperators.findIdx? (·.id = o)

/-- The dependencies of operators on each other. Edges come in the order of the operands. -/
def dependencies (g : Graph α) : Digraph :=
  let operands := g.liveOperators.flatMap fun op => op.inputs.map fun v => (v, op.id)
  operands.foldl
    (fun d (v, o) =>
      match (g.producer? v).bind g.position?, g.position? o with
      | some a, some b => d.addEdge (a, b)
      | _, _ => d)
    { labels := g.liveOperators.map (·.label), edges := [] }

end Graph

end TensorGraph
