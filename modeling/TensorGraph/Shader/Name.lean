import TensorGraph.Digest.Blake3
import TensorGraph.Shader.Kernel
import TensorGraph.Text.Hex

/-!
# TensorGraph.Shader.Name

Names of kernels by their content: what the operator computes, and the start of the digest of the
signature.
-/

namespace TensorGraph.KernelSpec

variable {α : Type} [Scalar α]

/-- The first hexadecimal digits of a digest, two to a byte. -/
def fingerprint (text : String) : String :=
  Text.hexBytes ((Blake3.digest text.toUTF8.toList).take 6)

def name (s : KernelSpec α) : String :=
  s.kind.name ++ "_" ++ fingerprint s.signature

end TensorGraph.KernelSpec
