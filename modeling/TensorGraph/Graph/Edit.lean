import TensorGraph.Graph.Basic

/-!
# TensorGraph.Graph.Edit

Edits of a graph. Each of them can fail, and then says at which node and why.

* Construction: `addVariable`, `addConstant`, `setPayload`, `addOperator`, `designateInputs`,
  `designateOutputs`.
* Changing operators: `removeOperator`, `rebindOutput`, `replaceInput`, `setInputs`, `setKind`,
  `prune`.

An edit is a state transformer that keeps the graph also when it fails, so that what a failed
edit has done to the graph can be asked. The edits are the only way to change a graph, and they
keep producers and consumers of variables in step with the operands of operators.
-/

namespace TensorGraph

/-- A computation on a graph that may fail. -/
abbrev Edit (α β : Type) := EStateM GraphError (Graph α) β

namespace Edit

variable {α : Type}

/-- The variable of an id. -/
def liveVariable (v : VariableId) : Edit α (Variable α) := do
  match (← get).variableAt? v with
  | some x => return x
  | none => throw (.atVariable v .variableNotLive)

/-- The operator of an id. -/
def liveOperator (o : OperatorId) : Edit α (Operator α) := do
  match (← get).operatorAt? o with
  | some op => return op
  | none => throw (.atOperator o .operatorNotLive)

/-- Changes the record of a live variable. -/
def updateVariable (v : VariableId) (f : Variable α → Variable α) : Edit α Unit := do
  let x ← liveVariable v
  modify fun g => { g with variableSlots := g.variableSlots.put v.index (f x) }

/-- Changes the record of a live operator. -/
def updateOperator (o : OperatorId) (f : Operator α → Operator α) : Edit α Unit := do
  let op ← liveOperator o
  modify fun g => { g with operatorSlots := g.operatorSlots.put o.index (f op) }

/-- Records that `o` reads `v`. -/
def addConsumer (o : OperatorId) (v : VariableId) : Edit α Unit :=
  updateVariable v fun x =>
    if x.consumers.contains o then x else { x with consumers := x.consumers ++ [o] }

/-- Records that `o` no longer reads `v`. -/
def dropConsumer (o : OperatorId) (v : VariableId) : Edit α Unit :=
  updateVariable v fun x => { x with consumers := x.consumers.filter (· ≠ o) }

def setProducer (o : Option OperatorId) (v : VariableId) : Edit α Unit :=
  updateVariable v fun x => { x with producer := o }

/-! ## Construction -/

def addVariable (name : String) (shape : Shape) : Edit α VariableId := do
  let g ← get
  let id : VariableId := ⟨g.variableSlots.size⟩
  let x : Variable α :=
    { id, name, shape, payload := none, producer := none, consumers := [] }
  set { g with variableSlots := g.variableSlots.push x }
  return id

/-- Adds a constant, whose payload has to have the size of its shape. -/
def addConstant (name : String) (shape : Shape) (payload : Array α) : Edit α VariableId := do
  if payload.size ≠ shape.size then
    throw (.shapeMismatch (.named name) (.constantSize shape shape.size payload.size))
  let id ← addVariable name shape
  updateVariable id fun x => { x with payload := some payload }
  return id

/-- Makes a variable a constant. -/
def setPayload (v : VariableId) (payload : Array α) : Edit α Unit := do
  let x ← liveVariable v
  if payload.size ≠ x.size then
    throw (.shapeMismatch (.variable v) (.payloadSize x.size payload.size))
  if x.producer.isSome then
    throw (.atVariable v .payloadOfProduced)
  updateVariable v fun x => { x with payload := some payload }

/-- Checks that every output is live, free, and named once and not also as an input. -/
def checkOutputs (o : OperatorId) (inputs : List VariableId) :
    List VariableId → List VariableId → Edit α Unit
  | _, [] => return
  | before, v :: rest => do
    match (← get).variableAt? v with
    | none => throw (.atOperator o (.outputNotLive v))
    | some x =>
      match x.producer with
      | some p => throw (.atOperator o (.outputProduced v p))
      | none =>
        if x.isConstant then throw (.atOperator o (.outputConstant v))
        if before.contains v || inputs.contains v then throw (.atOperator o (.repeated v))
        checkOutputs o inputs (before ++ [v]) rest

def addOperator (kind : OperatorKind α) (inputs outputs : List VariableId) :
    Edit α OperatorId := do
  let o : OperatorId := ⟨(← get).operatorSlots.size⟩
  inputs.forM fun v => do
    if ((← get).variableAt? v).isNone then throw (.atOperator o (.inputNotLive v))
  checkOutputs o inputs [] outputs
  inputs.forM (addConsumer o)
  outputs.forM (setProducer (some o))
  modify fun g =>
    { g with operatorSlots := g.operatorSlots.push { id := o, kind, inputs, outputs } }
  return o

/-- Designates the inputs of the graph: variables that nothing else gives a value. -/
def designateInputs (vs : List VariableId) : Edit α Unit := do
  vs.forM fun v => do
    let x ← liveVariable v
    if x.producer.isSome || x.isConstant then throw (.atVariable v .inputNotFree)
  modify fun g => { g with inputs := vs }

def designateOutputs (vs : List VariableId) : Edit α Unit := do
  vs.forM fun v => discard (liveVariable v)
  modify fun g => { g with outputs := vs }

/-! ## Changing operators -/

/-- Takes an operator out. Its operands stay in the graph. -/
def removeOperator (o : OperatorId) : Edit α (Operator α) := do
  let op ← liveOperator o
  modify fun g => { g with operatorSlots := g.operatorSlots.erase o.index }
  op.inputs.forM (dropConsumer o)
  op.outputs.forM fun v =>
    updateVariable v fun x => if x.producer = some o then { x with producer := none } else x
  return op

/-- Puts `new` in the place of the first `old` of a list. -/
def replaceFirst (old new : VariableId) : List VariableId → List VariableId
  | [] => []
  | v :: rest => if v = old then new :: rest else v :: replaceFirst old new rest

/-- Lets an operator write `new` instead of its output `old`. -/
def rebindOutput (o : OperatorId) (old new : VariableId) : Edit α Unit := do
  match (← liveVariable new).producer with
  | some p => throw (.atVariable new (.produced p))
  | none =>
    let op ← liveOperator o
    if !op.outputs.contains old then throw (.atOperator o (.notAnOutput old))
    updateOperator o fun op => { op with outputs := replaceFirst old new op.outputs }
    setProducer none old
    setProducer (some o) new

/-- Lets an operator read `new` wherever it reads `old`. -/
def replaceInput (o : OperatorId) (old new : VariableId) : Edit α Unit := do
  let _ ← liveVariable new
  let op ← liveOperator o
  if !op.inputs.contains old then throw (.atOperator o (.notAnInput old))
  updateOperator o fun op =>
    { op with inputs := op.inputs.map fun v => if v = old then new else v }
  dropConsumer o old
  addConsumer o new

/-- Replaces all operands of an operator. -/
def setInputs (o : OperatorId) (inputs : List VariableId) : Edit α Unit := do
  inputs.forM fun v => discard (liveVariable v)
  let op ← liveOperator o
  updateOperator o fun op => { op with inputs }
  op.inputs.forM (dropConsumer o)
  inputs.forM (addConsumer o)

def setKind (o : OperatorId) (kind : OperatorKind α) : Edit α Unit :=
  updateOperator o fun op => { op with kind }

/-- Whether a variable is written or read by an operator, or designated. -/
def needed (g : Graph α) (x : Variable α) : Bool :=
  x.producer.isSome || !x.consumers.isEmpty || g.isInput x.id || g.isOutput x.id

/-- Drops every variable that is not needed, and counts them. -/
def prune : Edit α Nat := do
  let g ← get
  let dropped := g.liveVariables.countP fun x => !needed g x
  set { g with variableSlots := g.variableSlots.keep (needed g) }
  return dropped

end Edit

end TensorGraph
