/-!
# TensorGraph.Lowering.Backend

The targets that a graph can be lowered to.
-/

namespace TensorGraph

/-- `fallback` names reference implementations, `webgpu` generates compute kernels. -/
inductive Backend where
  | fallback
  | webgpu
  deriving DecidableEq

namespace Backend

def all : List Backend := [.webgpu, .fallback]

def name : Backend → String
  | .fallback => "fallback"
  | .webgpu => "webgpu"

def parse? (name : String) : Option Backend := all.find? (·.name = name)

/-- Whether there is kernel source among the artifacts. -/
def hasSource : Backend → Bool
  | .fallback => false
  | .webgpu => true

@[simp] theorem parse?_name (b : Backend) : parse? b.name = some b := by
  cases b <;> simp [parse?, all, name]

end Backend

end TensorGraph
