import TensorGraph.Json.Printer
import TensorGraph.Json.Reader
import TensorGraph.Scalar
import TensorGraph.Trace.Basic

/-!
# TensorGraph.Trace.Document

Traces as JSON documents.

* `Trace.ofJson`: reads a document.
* `Trace.toJson`: writes one.

A record is an object with named fields, or an array of its fields in order. Fields of other names
are passed over, and a field may not be given twice.
-/

namespace TensorGraph

open Json (Reader)

namespace TraceDocument

/-- The value of a field that is read for the first time. -/
def once {β : Type} (name : String) (slot : Option β) (item : Reader β) : Reader (Option β) := do
  if slot.isSome then throw (.duplicateField name)
  Json.colon
  some <$> item

/-- A field of no known name. -/
def other {σ : Type} (fields : σ) : Reader σ := do
  Json.colon
  Json.skipValue
  return fields

/-- The value of a field that has to be there. -/
def required {β : Type} (name : String) : Option β → Reader β
  | some x => return x
  | none => throw (.missingField name)

/-- The next field of a record that is written as an array, if there is one. -/
def next? {β : Type} (first : Bool) (item : Reader β) : Reader (Option β) := do
  if (← Json.moreElements first) then some <$> item else return none

/-- The next field of a record that is written as an array and `size` names, the field number
`index`. -/
def next {β : Type} (index : Nat) (size : String) (item : Reader β) : Reader β := do
  match (← next? (index == 0) item) with
  | some x => return x
  | none => throw (.wrongLength index size)

/-- A record, by its array form and by its object form. -/
def record {β σ : Type} (wanted : String) (array : Reader β) (field : String → σ → Reader σ)
    (start : σ) (finish : σ → Reader β) : Reader β := do
  match (← Json.peekToken) with
  | none => throw (.ended .value)
  | some '[' => do
    Json.skipChar
    let x ← array
    Json.endSequence
    return x
  | some '\x7b' => do
    Json.skipChar
    let fuel := (← get).length + 1
    let fields ← Json.membersFrom field fuel true start
    let x ← finish fields
    Json.endObject
    return x
  | some _ => Json.unexpected wanted

/-- A binary32 number. Integers are rounded directly, other numbers as binary64 first. -/
def real : Reader Binary32 := do
  match (← Json.number "f32") with
  | .integer (.ofNat n) => return .ofNat n
  | .integer (.negSucc n) => return -.ofNat (n + 1)
  | .float x => return Binary32.ofFloat64 x
  | .single x => return x

def reals : Reader (Array Binary32) := List.toArray <$> Json.listOf real

def names : Reader (List String) := Json.listOf Json.text

/-! ## Variables -/

structure VariableFields where
  name : Option String
  shape : Option (List Nat)
  elementType : Option (Option String)
  payload : Option (Option (Array Binary32))

def variableField (key : String) (f : VariableFields) : Reader VariableFields := do
  if key = "id" then
    return { f with name := ← once key f.name Json.text }
  else if key = "shape" then
    return { f with shape := ← once key f.shape (Json.listOf Json.natural) }
  else if key = "dtype" then
    return { f with elementType := ← once key f.elementType (Json.optional Json.text) }
  else if key = "data" then
    return { f with payload := ← once key f.payload (Json.optional reals) }
  else other f

def variableArray : Reader TracedVariable := do
  let size := "struct TraceVariable with 4 elements"
  let name ← next 0 size Json.text
  let shape ← next 1 size (Json.listOf Json.natural)
  let elementType ← next? false (Json.optional Json.text)
  let payload ← next? false (Json.optional reals)
  return ⟨name, shape, elementType.join, payload.join⟩

def tracedVariable : Reader TracedVariable :=
  record "struct TraceVariable" variableArray variableField ⟨none, none, none, none⟩ fun f => do
    let name ← required "id" f.name
    let shape ← required "shape" f.shape
    return ⟨name, shape, f.elementType.join, f.payload.join⟩

/-! ## Nodes -/

structure NodeFields where
  tag : Option String
  inputs : Option (List String)
  outputs : Option (List String)
  params : Option Json.Members

/-- Levels of nesting left inside the parameters of a node, which stand four levels deep. -/
def paramDepth : Nat := Json.depthLimit - 4

def nodeField (key : String) (f : NodeFields) : Reader NodeFields := do
  if key = "op" then
    return { f with tag := ← once key f.tag Json.text }
  else if key = "inputs" then
    return { f with inputs := ← once key f.inputs names }
  else if key = "outputs" then
    return { f with outputs := ← once key f.outputs names }
  else if key = "params" then
    return { f with params := ← once key f.params (Json.object paramDepth) }
  else other f

def nodeArray : Reader TracedNode := do
  let tag ← next 0 "struct TraceNode with 4 elements" Json.text
  let inputs ← next? false names
  let outputs ← next? false names
  let params ← next? false (Json.object paramDepth)
  return ⟨tag, inputs.getD [], outputs.getD [], params.getD []⟩

def tracedNode : Reader TracedNode :=
  record "struct TraceNode" nodeArray nodeField ⟨none, none, none, none⟩ fun f => do
    let tag ← required "op" f.tag
    return ⟨tag, f.inputs.getD [], f.outputs.getD [], f.params.getD []⟩

/-! ## Whole traces -/

structure TraceFields where
  tensors : Option (List TracedVariable)
  nodes : Option (List TracedNode)
  inputs : Option (List String)
  outputs : Option (List String)

def traceField (key : String) (f : TraceFields) : Reader TraceFields := do
  if key = "variables" then
    return { f with tensors := ← once key f.tensors (Json.listOf tracedVariable) }
  else if key = "nodes" then
    return { f with nodes := ← once key f.nodes (Json.listOf tracedNode) }
  else if key = "inputs" then
    return { f with inputs := ← once key f.inputs names }
  else if key = "outputs" then
    return { f with outputs := ← once key f.outputs names }
  else other f

def traceArray : Reader Trace := do
  let size := "struct GraphTrace with 4 elements"
  let tensors ← next 0 size (Json.listOf tracedVariable)
  let nodes ← next 1 size (Json.listOf tracedNode)
  let inputs ← next 2 size names
  let outputs ← next 3 size names
  return ⟨tensors, nodes, inputs, outputs⟩

def trace : Reader Trace :=
  record "struct GraphTrace" traceArray traceField ⟨none, none, none, none⟩ fun f => do
    let tensors ← required "variables" f.tensors
    let nodes ← required "nodes" f.nodes
    let inputs ← required "inputs" f.inputs
    let outputs ← required "outputs" f.outputs
    return ⟨tensors, nodes, inputs, outputs⟩

/-! ## Writing -/

/-- A member that is written only if there is something to write. -/
def memberIf (key : String) (v : Option Json.Value) : Json.Members :=
  match v with
  | some v => [(key, v)]
  | none => []

def variableValue (v : TracedVariable) : Json.Value :=
  .object (
    [("id", .string v.name), ("shape", .nats v.shape)] ++
    memberIf "dtype" (v.elementType.map .string) ++
    memberIf "data" (v.payload.map fun xs => .array (xs.toList.map (.number <| .single ·))))

def nodeValue (n : TracedNode) : Json.Value :=
  .object (
    [("op", .string n.tag), ("inputs", .strings n.inputs), ("outputs", .strings n.outputs)] ++
    (if n.params.isEmpty then [] else [("params", .object n.params)]))

def traceValue (t : Trace) : Json.Value :=
  .object [
    ("variables", .array (t.tensors.map variableValue)),
    ("nodes", .array (t.nodes.map nodeValue)),
    ("inputs", .strings t.inputs),
    ("outputs", .strings t.outputs)]

end TraceDocument

namespace Trace

def ofJson (source : String) : Except Json.Fault Trace := Json.readAll TraceDocument.trace source

def toJson (t : Trace) : String := (TraceDocument.traceValue t).pretty

end Trace

end TensorGraph
