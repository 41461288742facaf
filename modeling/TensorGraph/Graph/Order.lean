import TensorGraph.Graph.Basic

/-!
# TensorGraph.Graph.Order

Operators in the order of their dependencies.

* `Graph.topologicalOrder`: every operator after the producers of its operands, and among the
  operators that could come next always the earliest inserted, so that the order is a function of
  the graph.

Each operator waits for as many values as it has operands that some operator produces. Emitting
an operator takes off the waiting count of every consumer how often it reads the values emitted.
-/

namespace TensorGraph

/-- A run of the ordering: how many values each operator still waits for, the operators that wait
for none in ascending order, and the operators emitted so far, the latest first. -/
structure Sweep where
  pending : List (OperatorId × Nat)
  ready : List OperatorId
  emitted : List OperatorId

/-- Inserts an operator into an ascending list. -/
def insertAscending (o : OperatorId) : List OperatorId → List OperatorId
  | [] => [o]
  | p :: rest => if o.index ≤ p.index then o :: p :: rest else p :: insertAscending o rest

namespace Sweep

def waiting? (s : Sweep) (o : OperatorId) : Option Nat := s.pending.lookup o

/-- Takes `uses` values off what `o` waits for. -/
def settle (s : Sweep) (o : OperatorId) (uses : Nat) : Sweep :=
  match s.waiting? o with
  | none => s
  | some n =>
    { s with
      pending := s.pending.map fun (p, m) => if p = o then (p, m - uses) else (p, m)
      ready := if n - uses = 0 then insertAscending o s.ready else s.ready }

variable {α : Type}

/-- The state before any operator is emitted. -/
def start (g : Graph α) : Sweep :=
  let pending := g.liveOperators.map fun op =>
    (op.id, op.inputs.countP fun v => (g.producer? v).isSome)
  { pending
    ready := (pending.filter fun (_, n) => n = 0).map Prod.fst
    emitted := [] }

/-- The readers of what an operator computes, each with how often it reads one of the values. -/
def readers (g : Graph α) (op : Operator α) : List (OperatorId × Nat) :=
  op.outputs.flatMap fun v => (g.consumers v).map fun c => (c, g.uses c v)

/-- Emits the first ready operator. -/
def emit (g : Graph α) (s : Sweep) : Option Sweep :=
  match s.ready with
  | [] => none
  | o :: rest =>
    let s := { s with ready := rest, emitted := o :: s.emitted }
    match g.operatorAt? o with
    | none => some s
    | some op => some ((readers g op).foldl (fun s (c, uses) => s.settle c uses) s)

/-- Emits at most `fuel` operators, until none is ready. -/
def run (g : Graph α) : Nat → Sweep → Sweep
  | 0, s => s
  | fuel + 1, s =>
    match s.emit g with
    | none => s
    | some s => run g fuel s

/-- The first operator that still waits. -/
def stuck? (s : Sweep) : Option OperatorId :=
  (s.pending.find? fun (_, n) => 0 < n).map Prod.fst

end Sweep

namespace Graph

variable {α : Type}

/-- The place of an operator that is known by its id. -/
def placeOf (g : Graph α) (o : OperatorId) : Place :=
  match g.operatorAt? o with
  | some op => op.place
  | none => .operator o

/-- All live operators in dependency order. If some of them wait for each other, the error names
the earliest inserted operator that waits. -/
def topologicalOrder (g : Graph α) : Except GraphError (List OperatorId) :=
  let s := Sweep.run g g.operatorCount (.start g)
  if s.emitted.length = s.pending.length then .ok s.emitted.reverse
  else
    let place := match s.stuck? with
      | some o => g.placeOf o
      | none => .named ""
    .error (.invalidGraph place .cycle)

end Graph

end TensorGraph
