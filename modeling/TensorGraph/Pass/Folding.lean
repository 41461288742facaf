import TensorGraph.Evaluation.Basic
import TensorGraph.Pass.Basic

/-!
# TensorGraph.Pass.Folding

Computing ahead of time what depends on constants alone.

An operator all of whose operands are constants becomes the constant it computes. A batch
normalization whose statistics are constants becomes a scale and a shift per channel.
-/

namespace TensorGraph.Pass

variable {α : Type}

/-- Puts a constant in the place of an operator. -/
def replaceByConstant (op : Operator α) (result : Array α) : Edit α Unit := do
  let removed ← Edit.removeOperator op.id
  match removed.outputs with
  | v :: _ => Edit.setPayload v result
  | [] => return

variable [Scalar α]

/-- Replaces an operator on constants by its result. -/
def foldOperator (op : Operator α) : Edit α Unit := do
  let g ← get
  match g.evaluateOperator op (op.inputs.filterMap g.payload?) with
  | .error e => throw e
  | .ok result => replaceByConstant op result

/-- The factor of each channel: its scale over its deviation. -/
def foldedScale (eps : α) (gamma variance : Array α) : Array α :=
  gamma.zipWith (fun g v => g / Scalar.sqrt (v + eps)) variance

/-- What is left of a channel's shift when its mean is taken off after scaling. -/
def foldedBias (beta mean scale : Array α) : Array α :=
  (beta.zip mean).zipWith (fun (b, m) s => b - m * s) scale

/-- Turns a batch normalization with the given constant statistics into an affine map along the
channels. -/
def foldNormalization (op : Operator α) (eps : α) (x gammaId betaId : VariableId)
    (gamma beta mean variance : Array α) : Edit α Unit := do
  let g ← get
  let scale := foldedScale eps gamma variance
  let bias := foldedBias beta mean scale
  let scaleId ← Edit.addConstant (g.derivedName gammaId "scale") [scale.size] scale
  let biasId ← Edit.addConstant (g.derivedName betaId "bias") [scale.size] bias
  Edit.setInputs op.id [x, scaleId, biasId]
  Edit.setKind op.id (.axiswiseAffine 1 none)

def foldStep (op : Operator α) (report : PassReport) : Edit α PassReport := do
  let g ← get
  if op.inputs.all g.isConstant then
    foldOperator op
    return report.record 1
  else
    match op.kind, op.inputs with
    | .batchNormalization eps, x :: gammaId :: betaId :: meanId :: varianceId :: rest =>
      match g.payload? gammaId, g.payload? betaId, g.payload? meanId, g.payload? varianceId,
          rest.all g.isConstant with
      | some gamma, some beta, some mean, some variance, true => do
        foldNormalization op eps x gammaId betaId gamma beta mean variance
        return report.record 0
      | _, _, _, _, _ => return report
    | _, _ => return report

def constantFolding : Pass α := ⟨"constant_folding", sweep foldStep⟩

end TensorGraph.Pass
