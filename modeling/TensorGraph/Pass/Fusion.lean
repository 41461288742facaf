import TensorGraph.Pass.Basic

/-!
# TensorGraph.Pass.Fusion

Operators absorbed by the producer of their operand.

* `affineFusion`: a scale and a shift per channel go into the constant weights of the convolution
  or linear operator before them.
* `activationFusion`: an activation goes into the slot of the operator before it.
-/

namespace TensorGraph.Pass

variable {α : Type} [Scalar α]

/-- Weights with every output channel scaled. Output channels are outermost in every layout, so
each of them is one block of the payload. `none` if there is no channel for some weight. -/
def scaledWeights (weights scale : Array α) : Option (Array α) :=
  let block := weights.size / scale.size
  (weights.toList.zipIdx.mapM fun (w, i) => do
    let s ← scale[i / block]?
    return w * s).map List.toArray

/-- A bias scaled and shifted. -/
def scaledBias (bias scale shift : Array α) : Array α :=
  (bias.zip scale).zipWith (fun (b, s) t => b * s + t) shift

/-- Whether the weights of an operator can take up a scale and a shift of its result. -/
def absorbsAffine : OperatorKind α → Bool
  | .convolution p => p.activation.isNone
  | .linear activation => activation.isNone
  | _ => false

/-- Operands of a convolution or linear operator with constant weights: its input, its weights,
and their payload and bias, zero if there is none. -/
structure WeightedOperands (α : Type) where
  x : VariableId
  weight : VariableId
  weights : Array α
  bias : Array α

/-- The operands of `op`, if its weights and bias are constants. -/
def weightedOperands? (g : Graph α) (op : Operator α) (channels : Nat) :
    Option (WeightedOperands α) :=
  match op.inputs with
  | [x, weight] => do
    let weights ← g.payload? weight
    return ⟨x, weight, weights, Array.replicate channels Scalar.zero⟩
  | x :: weight :: biasId :: _ => do
    let weights ← g.payload? weight
    let bias ← g.payload? biasId
    return ⟨x, weight, weights, bias⟩
  | _ => none

/-- Moves the scale and the shift of `op` into its producer. -/
def absorbAffine (op producer : Operator α) (operands : WeightedOperands α)
    (activation : Option (Activation α)) (scale weights bias : Array α) : Edit α Unit := do
  let g ← get
  let weightId ←
    Edit.addConstant (g.derivedName operands.weight "scaled") (g.shape operands.weight) weights
  let biasId ← Edit.addConstant (g.derivedName operands.weight "bias") [scale.size] bias
  Edit.setInputs producer.id [operands.x, weightId, biasId]
  match activation with
  | some a => Edit.setKind producer.id (producer.kind.withActivation a)
  | none => pure ()
  Edit.absorb producer.id op.id

/-- The parts of an affine operator along axis 1 with constant scale and shift. -/
def constantAffine? (g : Graph α) (op : Operator α) :
    Option (VariableId × Array α × Array α × Option (Activation α)) :=
  match op.kind, op.inputs with
  | .axiswiseAffine 1 activation, x :: scaleId :: shiftId :: _ => do
    let scale ← g.payload? scaleId
    let shift ← g.payload? shiftId
    return (x, scale, shift, activation)
  | _, _ => none

def fuseAffineStep (op : Operator α) (report : PassReport) : Edit α PassReport := do
  let g ← get
  let found := do
    let (x, scale, shift, activation) ← constantAffine? g op
    let producer ← (g.fusibleProducer? x op.id).bind g.operatorAt?
    if absorbsAffine producer.kind then
      let operands ← weightedOperands? g producer scale.size
      let weights ← scaledWeights operands.weights scale
      return (producer, operands, activation, scale, weights,
        scaledBias operands.bias scale shift)
    else none
  match found with
  | none => return report
  | some (producer, operands, activation, scale, weights, bias) => do
    absorbAffine op producer operands activation scale weights bias
    return report.record 1

def affineFusion : Pass α := ⟨"fuse_affine", sweep fuseAffineStep⟩

/-- The producer of a standalone activation's operand, if its slot is empty. -/
def activationHost? (g : Graph α) (op : Operator α) : Option (Operator α) := do
  let x ← op.input?
  let producer ← (g.fusibleProducer? x op.id).bind g.operatorAt?
  match producer.kind.activationSlot? with
  | some none => some producer
  | _ => none

def fuseActivationStep (op : Operator α) (report : PassReport) : Edit α PassReport := do
  match op.kind.standalone? with
  | none => return report
  | some a =>
    match activationHost? (← get) op with
    | none => return report
    | some producer => do
      Edit.setKind producer.id (producer.kind.withActivation a)
      Edit.absorb producer.id op.id
      return report.record 1

def activationFusion : Pass α := ⟨"fuse_activation", sweep fuseActivationStep⟩

end TensorGraph.Pass
