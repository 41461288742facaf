import TensorGraph.Graph.Basic
import TensorGraph.Lowering.Backend
import TensorGraph.Shader.Code

/-!
# TensorGraph.Shader.Kernel

The compute kernels of operators.

* `KernelSpec`: everything that decides the code of a kernel.
* `KernelSpec.ofOperator`: the specification for an operator of a graph.
* `KernelSpec.body`: the code for one invocation.
* `KernelSpec.source`: the text of a kernel under a name.

Where an operand starts in its buffer is no part of the specification: a kernel reads `p0`, `p1`,
… and, for its output, `o` from the parameters of a dispatch. So operators that need the same
code share a kernel.
-/

namespace TensorGraph

open Shader (Buffer Index Term Test Statement)

/-- Shape of an operand, and the buffer it lies in. -/
structure Operand where
  shape : Shape
  buffer : Buffer
  deriving DecidableEq

/-- Invocations are counted one to an element of the output, for a softmax one to a row. -/
structure KernelSpec (α : Type) where
  kind : OperatorKind α
  inputs : List Operand
  output : Shape
  invocations : Nat
  workgroupSize : Nat
  deriving DecidableEq

namespace KernelSpec

variable {α : Type}

def operandOf (g : Graph α) (v : VariableId) : Operand :=
  { shape := g.shape v, buffer := if g.isConstant v then .weights else .data }

/-- The specification for an operator. Margins become explicit, so that padding conventions that
amount to the same share a kernel. There is no kernel for response normalization. -/
def ofOperator (g : Graph α) (op : Operator α) (workgroupSize : Nat) :
    Except GraphError (KernelSpec α) :=
  let inputs := op.inputs.map (operandOf g)
  let output := match op.outputs.head? with
    | some v => g.shape v
    | none => []
  let extent : Extent := match (inputs.head?.bind fun x => ImageShape.ofShape? x.shape) with
    | some image => ⟨image.height, image.width⟩
    | none => ⟨0, 0⟩
  let spec (kind : OperatorKind α) (invocations : Nat) : KernelSpec α :=
    { kind, inputs, output, invocations, workgroupSize }
  match op.kind with
  | .convolution p => .ok (spec (.convolution (p.withExplicitMargins extent)) output.size)
  | .pooling p => .ok (spec (.pooling (p.withExplicitMargins extent)) output.size)
  | .responseNormalization _ =>
    .error (.unsupportedByBackend Backend.webgpu.name op.kind.name op.place)
  | .softmax axis => .ok (spec (.softmax axis) (output.size / output.getD axis 1))
  | kind => .ok (spec kind output.size)

/-- Operand `k`; one that is not there is empty. -/
def operand (s : KernelSpec α) (k : Nat) : Operand := s.inputs.getD k ⟨[], .data⟩

/-- Name of the parameter that holds the start of operand `k`. -/
def startName (k : Nat) : String := "p" ++ k.repr

/-- Element `i` of operand `k`. -/
def read (s : KernelSpec α) (k : Nat) (i : Index) : Term α :=
  .read (s.operand k).buffer (.named (startName k) + i)

/-- Where element `i` of the output lies. -/
def outputAt (i : Index) : Index := .named "o" + i

/-- The index of the invocation. -/
def invocation : Index := .named "i"

/-- An activation on a value. A value that is no name is put in parentheses. -/
def activated (a : Option (Activation α)) (value : Term α) : Term α :=
  let v := match value with
    | .named name => .named name
    | other => .grouped other
  match a with
  | none => v
  | some .relu => .max v .zero
  | some .sigmoid => .one / (.one + .exp (-v))
  | some .tanh => .tanh v
  | some (.leakyRelu slope) => .ifPositive (v * .constant slope) v v

/-- Writes element `i` of the output. -/
def emit (value : Term α) : Statement α := .store (outputAt invocation) value

/-- The coordinate of the invocation along `axis` of the first operand. -/
def coordinate (s : KernelSpec α) (axis : Nat) : Index :=
  let shape := (s.operand 0).shape
  invocation / .literal (shape.inner axis) % .literal (shape.getD axis 0)

/-- Where a sum with an optional bias starts. -/
def bias (s : KernelSpec α) (i : Index) : Term α :=
  if 2 < s.inputs.length then s.read 2 i else .zero

/-- Adds a value to the accumulator `acc`. -/
def accumulate (value : Term α) : Statement α := .assign "acc" (.named "acc" + value)

def linearBody (s : KernelSpec α) (a : Option (Activation α)) : List (Statement α) :=
  let outputs : Index := .literal (s.output.getD 1 0)
  let features := (s.operand 1).shape.getD 1 0
  let column (row : String) : Index := .named row * .literal features + .named "k"
  [.index "n" (invocation / outputs),
    .index "oc" (invocation % outputs),
    .accumulator "acc" (s.bias (.named "oc")),
    .loop "k" features [accumulate (s.read 0 (column "n") * s.read 1 (column "oc"))],
    emit (activated a (.named "acc"))]

/-- A loop over one axis of a window, from which positions over the margin are skipped. The
coordinate among the pixels with the margin in front of them gets the name `position`. -/
def axisLoop (offset window position : String) (kernel stride before extent : Nat)
    (body : List (Statement α)) : Statement α :=
  let p : Index := .named position
  .loop offset kernel
    (.index position (.named window * .literal stride + .named offset) ::
      .continueIf (.or (.less p (.literal before))
        (.atLeast (p - .literal before) (.literal extent))) ::
      body)

/-- The loops over the pixels of a window. -/
def windowLoop (kernel stride : Extent) (margins : Margins) (image : ImageShape)
    (body : List (Statement α)) : Statement α :=
  axisLoop "ky" "oy" "iy" kernel.height stride.height margins.top image.height
    [axisLoop "kx" "ox" "ix" kernel.width stride.width margins.left image.width body]

/-- Index of the pixel under the window, `plane` counting the image planes before it. -/
def pixelIndex (plane : Index) (margins : Margins) (image : ImageShape) : Index :=
  (plane * .literal image.height + .named "iy" - .literal margins.top) * .literal image.width +
    .named "ix" - .literal margins.left

/-- Row and column of the output, from the index of the invocation. -/
def outputPosition (output : ImageShape) : List (Statement α) :=
  [.index "ox" (invocation % .literal output.width),
    .index "oy" (invocation / .literal output.width % .literal output.height)]

def imageOf (shape : Shape) : ImageShape := (ImageShape.ofShape? shape).getD ⟨0, 0, 0, 0⟩

/-- Index of the filter element under the window, in the order of its layout. -/
def filterIndex (layout : FilterLayout) (channels : Nat) (kernel : Extent) : Index :=
  match layout with
  | .oihw =>
    ((.named "oc" * .literal channels + .named "c") * .literal kernel.height + .named "ky") *
      .literal kernel.width + .named "kx"
  | .ohwi =>
    ((.named "oc" * .literal kernel.height + .named "ky") * .literal kernel.width +
      .named "kx") * .literal channels + .named "c"

def convolutionBody (s : KernelSpec α) (p : Convolution α) : List (Statement α) :=
  let image := imageOf (s.operand 0).shape
  let output := imageOf s.output
  let margins := p.margins ⟨0, 0⟩
  let plane := output.width * output.height
  let channelPlane : Index := .named "n" * .literal image.channels + .named "c"
  outputPosition output ++
    [.index "oc" (invocation / .literal plane % .literal output.channels),
      .index "n" (invocation / .literal (plane * output.channels)),
      .accumulator "acc" (s.bias (.named "oc")),
      .loop "c" image.channels
        [windowLoop p.kernel p.stride margins image
          [accumulate (s.read 0 (pixelIndex channelPlane margins image) *
            s.read 1 (filterIndex p.layout image.channels p.kernel))]],
      emit (activated p.activation (.named "acc"))]

/-- Both modes keep the maximum and the sum, and store what they need. -/
def poolingBody [Scalar α] (s : KernelSpec α) (p : Pooling) : List (Statement α) :=
  let image := imageOf (s.operand 0).shape
  let output := imageOf s.output
  let margins := p.padding.resolve ⟨0, 0⟩ p.kernel p.stride
  outputPosition output ++
    [.index "plane" (invocation / .literal (output.width * output.height)),
      .accumulator "best" .least,
      .accumulator "acc" .zero,
      .block
        [windowLoop p.kernel p.stride margins image
          [.number "v" (s.read 0 (pixelIndex (.named "plane") margins image)),
            .assign "best" (.max (.named "best") (.named "v")),
            accumulate (.named "v")]],
      emit (match p.mode with
        | .max => .named "best"
        | .average =>
          .named "acc" / .constant (Scalar.ofNat (p.kernel.height * p.kernel.width)))]

/-- One invocation does a whole row. -/
def softmaxBody (s : KernelSpec α) (axis : Nat) : List (Statement α) :=
  let shape := (s.operand 0).shape
  let inner := shape.inner axis
  let extent := shape.getD axis 0
  let element : Index := .named "row" + .named "d" * .literal inner
  let result : Index := outputAt element
  [.index "row" (invocation / .literal inner * .literal (extent * inner) +
      invocation % .literal inner),
    .accumulator "m" .least,
    .loop "d" extent [.assign "m" (.max (.named "m") (s.read 0 element))],
    .accumulator "denom" .zero,
    .loop "d" extent
      [.number "e" (.exp (s.read 0 element - .named "m")),
        .store result (.named "e"),
        .assign "denom" (.named "denom" + .named "e")],
    .loop "d" extent [.store result (.read .data result / .named "denom")]]

/-- The code for one invocation: it computes element `i`, or row `i` of a softmax. -/
def body [Scalar α] (s : KernelSpec α) : List (Statement α) :=
  let x := s.read 0 invocation
  let channel : Index := .named "c"
  match s.kind with
  | .activation a => [.number "x" x, emit (activated (some a) (.named "x"))]
  | .reshape _ => [emit x]
  | .scalarAffine scale bias => [emit (x * .constant scale + .constant bias)]
  | .elementwiseAdd a =>
    .accumulator "acc" x ::
      ((List.range (s.inputs.length - 1)).map fun k => accumulate (s.read (k + 1) invocation)) ++
      [emit (activated a (.named "acc"))]
  | .axiswiseAffine axis a =>
    [.index "c" (s.coordinate axis),
      emit (activated a (x * s.read 1 channel + s.read 2 channel))]
  | .batchNormalization eps =>
    [.index "c" (s.coordinate 1),
      emit ((x - s.read 3 channel) / .sqrt (s.read 4 channel + .constant eps) *
        s.read 1 channel + s.read 2 channel)]
  | .linear a => s.linearBody a
  | .convolution p => s.convolutionBody p
  | .pooling p => s.poolingBody p
  | .softmax axis => s.softmaxBody axis
  | .responseNormalization _ => []

/-- The index of an invocation from its place in the grid of a dispatch, and the names of the
parameters. Invocations past the last element do nothing. -/
def preamble (s : KernelSpec α) : List (Statement α) :=
  [.index "i" (.named "gid.x" + .named "gid.y" * .named "nwg.x" * .literal s.workgroupSize),
    .returnIf (.atLeast invocation (.literal s.invocations))] ++
    ((List.range s.inputs.length).map fun k => .parameter (startName k) k) ++
    [.parameter "o" s.inputs.length]

def code [Scalar α] (s : KernelSpec α) : List (Statement α) := s.preamble ++ s.body

/-- The text of the kernel as an entry point of the given name. -/
def source [Scalar α] (s : KernelSpec α) (name : String) : String :=
  "@compute @workgroup_size(" ++ s.workgroupSize.repr ++ ")\n" ++
    "fn " ++ name ++ "(@builtin(global_invocation_id) gid: vec3<u32>, " ++
    "@builtin(num_workgroups) nwg: vec3<u32>) \x7b\n" ++
    Statement.bodyLines 1 s.code ++ "\x7d\n"

/-- The text of the kernel but for its name. Specifications with one signature share a kernel. -/
def signature [Scalar α] (s : KernelSpec α) : String := s.source ""

end KernelSpec

end TensorGraph
