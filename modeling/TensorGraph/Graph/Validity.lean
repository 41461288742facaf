import TensorGraph.Graph.Dependency
import TensorGraph.Graph.Order
import TensorGraph.Operator.OutputShape

/-!
# TensorGraph.Graph.Validity

What a graph has to satisfy.

* `Graph.validate`: the structure of a graph, and the first thing that is wrong with it.
* `Graph.checkOperator`: one operator's declared shapes against what its kind computes.
* `Graph.check`: both, for the whole graph.
-/

namespace TensorGraph.Graph

variable {α : Type}

/-- Fails with `error` unless the condition holds. -/
def ensure (condition : Bool) (error : GraphError) : Except GraphError Unit :=
  if condition then .ok () else .error error

/-- Operands of an operator are live and point back at it. -/
def validateOperator (g : Graph α) (op : Operator α) : Except GraphError Unit := do
  (op.inputs ++ op.outputs).forM fun v =>
    ensure (g.variableAt? v).isSome (.invalidGraph op.place (.deadReference v))
  op.inputs.forM fun v =>
    ensure ((g.consumers v).contains op.id) (.atVariable v (.missingConsumer op.id))
  op.outputs.forM fun v =>
    ensure (g.producer? v == some op.id) (.atVariable v (.missingProducer op.id))

/-- Whether `o` is a live operator with `v` among its outputs. -/
def writes (g : Graph α) (o : OperatorId) (v : VariableId) : Bool :=
  match g.operatorAt? o with
  | some op => op.outputs.contains v
  | none => false

/-- Whether `o` is a live operator with `v` among its inputs. -/
def reads (g : Graph α) (o : OperatorId) (v : VariableId) : Bool :=
  match g.operatorAt? o with
  | some op => op.inputs.contains v
  | none => false

/-- A variable has one source of its value, a shape that fits its payload, and a use. -/
def validateVariable (g : Graph α) (x : Variable α) : Except GraphError Unit := do
  match x.producer with
  | some p =>
    ensure (g.writes p x.id) (.atVariable x.id (.staleProducer p))
    ensure (!x.isConstant) (.atVariable x.id .producedConstant)
  | none => pure ()
  x.consumers.forM fun c => ensure (g.reads c x.id) (.atVariable x.id (.staleConsumer c))
  match x.payload with
  | some payload =>
    ensure (payload.size == x.size) (.atVariable x.id (.payloadSize payload.size x.shape))
  | none => pure ()
  ensure (!x.shape.contains 0) (.atVariable x.id (.emptyDimension x.shape))
  ensure (x.producer.isSome || x.isConstant || g.isInput x.id) (.atVariable x.id .unsourced)
  ensure (!x.consumers.isEmpty || g.isOutput x.id || g.isInput x.id) (.atVariable x.id .unused)

/-- Operators do not wait for each other. The error names an operator that does. -/
def validateOrder (g : Graph α) : Except GraphError Unit := do
  if g.dependencies.isCyclic then
    let _ ← g.topologicalOrder
    throw (.invalidGraph (.named "graph") .cycle)

/-- The invariants of a graph, checked in a fixed order: operators, variables, designations,
dependencies. -/
def validate (g : Graph α) : Except GraphError Unit := do
  g.liveOperators.forM g.validateOperator
  g.liveVariables.forM g.validateVariable
  (g.inputs ++ g.outputs).forM fun v =>
    ensure (g.variableAt? v).isSome (.atVariable v .deadDesignation)
  g.validateOrder

variable [Scalar α]

/-- The shape that an operator's kind gives its result, from the shapes of its operands. -/
def inferredShape (g : Graph α) (op : Operator α) : Except GraphError Shape :=
  match op.kind.outputShape (op.inputs.map g.shape) with
  | .ok shape => .ok shape
  | .error flaw => .error (.shapeMismatch op.place flaw)

/-- An operator has one output, declared with the shape that its operands give. -/
def checkOperator (g : Graph α) (op : Operator α) : Except GraphError Unit := do
  let inferred ← g.inferredShape op
  match op.outputs with
  | [v] =>
    ensure (g.shape v == inferred)
      (.shapeMismatch op.place (.declaredShape v (g.shape v) (op.inputs.map g.shape) inferred))
  | outputs => throw (.shapeMismatch op.place (.outputCount outputs.length))

/-- A valid graph all of whose operators have the shapes they declare. -/
def check (g : Graph α) : Except GraphError Unit := do
  g.validate
  g.liveOperators.forM g.checkOperator

end TensorGraph.Graph
