import TensorGraph.Lowering.Generation
import TensorGraph.Lowering.Table
import TensorGraph.Shader.Name

/-!
# TensorGraph.Lowering.Device

The WebGPU backend: a compute kernel for every operator.

* `Device.allocate`: where the variables lie in the data buffer.
* `Device.dispatch`: how many workgroups cover a number of invocations.
* `Device.firstUses`: the kernels, those with the same code once.
* `DeviceDescriptor.source`: the shader module of a descriptor.

Kernels read the packed weights, read and write one data buffer, and find in a table of
parameters where their operands start. All of these count elements, in words of 32 bits.
-/

namespace TensorGraph

/-- Where a variable lies in the data buffer, in elements. -/
structure Allocation where
  id : VariableId
  offset : Nat
  length : Nat
  deriving DecidableEq

/-- One dispatch. The parameters are the starts of the operands, then that of the output. -/
structure DeviceKernel where
  entryPoint : String
  workgroups : Nat × Nat × Nat
  workgroupSize : Nat
  params : List Nat
  inputs : List VariableId
  outputs : List VariableId
  deriving DecidableEq

/-- An entry point of the shader module, and its text. -/
structure EntryPoint where
  name : String
  text : String
  deriving DecidableEq

structure DeviceDescriptor where
  interface : Interface
  allocation : List Allocation
  /-- Size of the data buffer in elements. -/
  dataElements : Nat
  kernels : List DeviceKernel
  /-- The entry points in the order of their first use. -/
  entryPoints : List EntryPoint
  deriving DecidableEq

namespace DeviceDescriptor

/-- The bindings that all kernels of a module share. -/
def bindings : String :=
  "@group(0) @binding(0) var<storage, read> weights: array<f32>;\n" ++
  "@group(0) @binding(1) var<storage, read_write> data: array<f32>;\n" ++
  "@group(0) @binding(2) var<storage, read> params: array<u32>;\n"

/-- The shader module. -/
def source (d : DeviceDescriptor) : String :=
  d.entryPoints.foldl (fun text e => text ++ "\n" ++ e.text) bindings

end DeviceDescriptor

namespace Device

variable {α : Type}

/-- Largest number of workgroups along one dimension of a dispatch. -/
def workgroupLimit : Nat := 65535

def maxWorkgroupSize : Nat := 256

/-- The workgroup size nearest to the one asked for that a device allows. -/
def clampedWorkgroupSize (n : Nat) : Nat := max 1 (min n maxWorkgroupSize)

/-- What is left of a number in a word of the device. -/
def word (n : Nat) : Nat := n % Nat.pow 2 32

/-- Numbers of workgroups along the three dimensions that cover `invocations`. Past the limit of
one dimension they fill rows of the second. -/
def dispatch (invocations workgroupSize : Nat) : Nat × Nat × Nat :=
  let groups := max 1 (ceilDiv invocations (max 1 workgroupSize))
  if groups ≤ workgroupLimit then (groups, 1, 1)
  else (workgroupLimit, word (ceilDiv groups workgroupLimit), 1)

/-- Number of elements of some variables, as far as a word of 64 bits counts. -/
def elementCount (xs : List (Variable α)) : Nat :=
  min ((xs.map Variable.size).foldr (· + ·) 0) (Nat.pow 2 64 - 1)

/-- A buffer that a word of 32 bits can address. -/
def checkBuffer (name : String) (elements : Nat) : Except GraphError Unit :=
  if Nat.pow 2 32 ≤ elements then
    .error (.invalidGraph (.named "graph") (.unaddressable name elements))
  else .ok ()

/-- The limits that the device sets: constants and other variables fit a buffer each. -/
def checkAddressable (g : Graph α) : Except GraphError Unit := do
  let (constants, others) := g.liveVariables.partition Variable.isConstant
  checkBuffer "weights" (elementCount constants)
  checkBuffer "data" (elementCount others)

/-- Gives each variable that is no constant the next free span, where it is met first. -/
def allocateNew (g : Graph α) : List VariableId → Nat → List VariableId → List Allocation
  | _, _, [] => []
  | seen, start, v :: rest =>
    match g.variableAt? v with
    | none => allocateNew g seen start rest
    | some x =>
      if x.isConstant || seen.contains v then allocateNew g seen start rest
      else ⟨v, start, x.size⟩ :: allocateNew g (v :: seen) (start + x.size) rest

/-- The results of an operator. -/
def resultsOf (g : Graph α) (o : OperatorId) : List VariableId :=
  match g.operatorAt? o with
  | some op => op.outputs
  | none => []

/-- The layout of the data buffer: the inputs of the graph, then the results of the operators in
the given order. -/
def allocate (g : Graph α) (order : List OperatorId) : List Allocation :=
  allocateNew g [] 0 (g.inputs ++ order.flatMap (resultsOf g))

/-- Number of elements of a data buffer. -/
def dataElements (spans : List Allocation) : Nat := (spans.map Allocation.length).foldr (· + ·) 0

/-- Where a variable starts in its buffer. -/
def startOf (weights : WeightBuffer α) (spans : List Allocation) (v : VariableId) : Nat :=
  match weights.entry? v with
  | some e => e.start
  | none =>
    match spans.find? (·.id = v) with
    | some a => a.offset
    | none => 0

variable [Scalar α]

/-- The entry points that the specifications need, without those whose names are in `seen`. -/
def firstUses : List String → List (KernelSpec α) → List EntryPoint
  | _, [] => []
  | seen, s :: rest =>
    let name := s.name
    if seen.contains name then firstUses seen rest
    else ⟨name, s.source name⟩ :: firstUses (name :: seen) rest

/-- The dispatch of an operator. -/
def kernel (weights : WeightBuffer α) (spans : List Allocation) (op : Operator α)
    (s : KernelSpec α) : DeviceKernel :=
  { entryPoint := s.name
    workgroups := dispatch s.invocations s.workgroupSize
    workgroupSize := s.workgroupSize
    params := (op.inputs ++ op.outputs).map fun v => word (startOf weights spans v)
    inputs := op.inputs
    outputs := op.outputs }

/-- Operators with their specifications. -/
abbrev Lowered (α : Type) := List (Operator α × KernelSpec α)

def descriptor (g : Graph α) (order : List OperatorId) (weights : WeightBuffer α)
    (lowered : Lowered α) : DeviceDescriptor :=
  let spans := allocate g order
  { interface := .of g weights
    allocation := spans
    dataElements := dataElements spans
    kernels := lowered.map fun (op, s) => kernel weights spans op s
    entryPoints := firstUses [] (lowered.map Prod.snd) }

/-- Lowers one operator. -/
def lowerOperator (g : Graph α) (workgroupSize : Nat) (op : Operator α) :
    Except GraphError (Operator α × KernelSpec α) := do
  let s ← KernelSpec.ofOperator g op workgroupSize
  return (op, s)

/-- A whole run of the backend. -/
def generate (g : Graph α) (workgroupSize : Nat) :
    Generation.Step (DeviceDescriptor × WeightBuffer α) := do
  let order ← Generation.traverse g checkAddressable
  let lowered ← Generation.lower g order (lowerOperator g workgroupSize)
  let weights ← Generation.pack g order
  Generation.finish
  return (descriptor g order weights lowered, weights)

end Device

end TensorGraph
