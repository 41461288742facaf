import TensorGraph.Json.Printer
import TensorGraph.Lowering.Artifact
import TensorGraph.Text.Hex

/-!
# TensorGraph.Lowering.Document

The files that artifacts are written to.

* `Descriptor.toJson`: a descriptor as a JSON document.
* `Artifacts.files`: the names and the contents of all files.
-/

namespace TensorGraph

open Json (Value)

namespace ArtifactDocument

def keys (vs : List VariableId) : Value := .strings (vs.map VariableId.text)

def variableRow (x : VariableEntry) : Value :=
  .object
    [("key", .string x.id.text), ("name", .string x.name), ("shape", .nats x.shape),
      ("size", .nat x.size), ("role", .string x.role.name)]

/-- A span of a buffer. -/
def span (id : VariableId) (offset length : Nat) : Value :=
  .object [("variable", .string id.text), ("offset", .nat offset), ("length", .nat length)]

def weight (e : WeightEntry) : Value := span e.id e.offset e.length

def interface (backend : Backend) (i : Interface) : Json.Members :=
  [("backend", .string backend.name), ("inputs", keys i.inputs), ("outputs", keys i.outputs),
    ("variables", .array (i.table.map variableRow)),
    ("weights", .array (i.weights.map weight)), ("weight_bytes", .nat i.weightBytes)]

/-- The shortest decimal of a number as a binary64 number, so that it prints with the same digits.
A number that is not finite has no JSON form. -/
def real (x : Binary32) : Value :=
  match x.value.toModel.unpack with
  | .finite s m e _ =>
    let d := shortestDecimal .binary32 true m e
    let value := Float.ofScientific d.digits (d.exponent < 0) d.exponent.natAbs
    .number (.float (match s with | .negative => -value | .positive => value))
  | .zero .negative => .number (.float (-0.0))
  | .zero .positive => .number (.float 0.0)
  | .infinity _ => .null
  | .notANumber => .null

def activation : Option (Activation Binary32) → Value
  | none => .null
  | some (.leakyRelu slope) =>
    .object [("slope", real slope), ("type", .string (Activation.leakyRelu slope).name)]
  | some a => .object [("type", .string a.name)]

def param : PortableParam Binary32 → Value
  | .natural n => .nat n
  | .naturals ns => .nats ns
  | .real x => real x
  | .word s => .string s
  | .activation a => activation a

def portableKernel (k : PortableKernel Binary32) : Value :=
  .object
    [("implementation", .string k.implementation), ("inputs", keys k.inputs),
      ("outputs", keys k.outputs),
      ("params", .object (k.params.map fun (key, p) => (key, param p)))]

def deviceKernel (k : DeviceKernel) : Value :=
  let (x, y, z) := k.workgroups
  .object
    [("entry_point", .string k.entryPoint), ("workgroups", .nats [x, y, z]),
      ("workgroup_size", .nat k.workgroupSize), ("params", .nats k.params),
      ("inputs", keys k.inputs), ("outputs", keys k.outputs)]

def portable (d : PortableDescriptor Binary32) : Json.Members :=
  [("kernels", .array (d.kernels.map portableKernel))]

def device (d : DeviceDescriptor) : Json.Members :=
  [("data_allocation", .array (d.allocation.map fun a => span a.id a.offset a.length)),
    ("data_elements", .nat d.dataElements), ("kernels", .array (d.kernels.map deviceKernel)),
    ("kernel_sources", .strings (d.entryPoints.map EntryPoint.name))]

end ArtifactDocument

def Descriptor.toJson (d : Descriptor Binary32) : Value :=
  .object (ArtifactDocument.interface d.backend d.interface ++
    match d with
    | .portable p => ArtifactDocument.portable p
    | .device p => ArtifactDocument.device p)

/-- Content of a file. -/
inductive Content where
  | text (s : String)
  | bytes (bs : List UInt8)

/-- The bytes of a file. -/
def Content.toBytes : Content → List UInt8
  | .text s => s.toUTF8.toList
  | .bytes bs => bs

namespace Artifacts

/-- The files of a build, the descriptor first. -/
def files (a : Artifacts Binary32) : List (String × Content) :=
  let backend := a.descriptor.backend.name
  [("graph_" ++ backend ++ ".json", .text a.descriptor.toJson.pretty),
    ("weight_" ++ backend ++ ".bin", .bytes a.weights.bytes)] ++
  match a.descriptor.source? with
  | some source => [("kernels_" ++ backend ++ ".wgsl", .text source)]
  | none => []

end Artifacts

end TensorGraph
