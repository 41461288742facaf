import TensorGraph.Lowering.Device
import TensorGraph.Lowering.Portable
import TensorGraph.Optimizer
import TensorGraph.Trace.Conversion

/-!
# TensorGraph.Lowering.Artifact

From a trace to everything that is needed to run it.

* `Artifacts`: a descriptor and the packed weights.
* `BuildOptions`: the backend, and what happens to the graph before it.
* `Trace.optimizedGraph`: the graph that is lowered.
* `Trace.build`: the artifacts of a trace.
-/

namespace TensorGraph

inductive Descriptor (α : Type) where
  | portable (d : PortableDescriptor α)
  | device (d : DeviceDescriptor)

namespace Descriptor

variable {α : Type}

def backend : Descriptor α → Backend
  | .portable _ => .fallback
  | .device _ => .webgpu

def interface : Descriptor α → Interface
  | .portable d => d.interface
  | .device d => d.interface

def kernelCount : Descriptor α → Nat
  | .portable d => d.kernels.length
  | .device d => d.kernels.length

/-- Kernel source, from a backend that generates it. -/
def source? : Descriptor α → Option String
  | .portable _ => none
  | .device d => some d.source

end Descriptor

structure Artifacts (α : Type) where
  descriptor : Descriptor α
  weights : WeightBuffer α

structure BuildOptions where
  backend : Backend
  /-- Whether the optimizer runs before the backend. -/
  optimize : Bool
  /-- Whether snapshots of the graph are logged. -/
  debug : Bool
  optimizer : OptimizerOptions
  workgroupSize : Nat

namespace BuildOptions

def forBackend (backend : Backend) : BuildOptions :=
  { backend, optimize := false, debug := false, optimizer := .standard, workgroupSize := 64 }

def standard : BuildOptions := forBackend .webgpu

end BuildOptions

variable {α : Type} [Scalar α]

/-- Lowers a graph for the backend that the options name. -/
def Graph.generate (g : Graph α) (options : BuildOptions) : Generation.Step (Artifacts α) := do
  match options.backend with
  | .fallback =>
    let (d, weights) ← Portable.generate g
    return ⟨.portable d, weights⟩
  | .webgpu =>
    let (d, weights) ← Device.generate g (Device.clampedWorkgroupSize options.workgroupSize)
    return ⟨.device d, weights⟩

/-- The artifacts of a graph. -/
def Graph.lower (g : Graph α) (options : BuildOptions) : Except GraphError (Artifacts α) :=
  match (g.generate options).run .start with
  | .ok artifacts _ => .ok artifacts
  | .error e _ => .error e

namespace Trace

/-- The graph of a trace, optimized if the options ask for it. -/
def optimizedGraph (t : Trace) (options : BuildOptions) : Recorded (Graph Binary32) := do
  let g ← Recorded.lift t.toGraph
  Recorded.snapshot "converted" g
  if options.optimize then g.optimize options.optimizer else return g

def build (t : Trace) (options : BuildOptions) : Recorded (Artifacts Binary32) := do
  let g ← t.optimizedGraph options
  Recorded.snapshot "before generation" g
  Recorded.lift (g.lower options)

end Trace

end TensorGraph
