import TensorGraph.Pass.Basic

/-!
# TensorGraph.Pass.Merging

Chains of the same elementwise operator as one operator.

A scaling with shift that only another one reads is composed with it. A sum without activation
that only another sum reads is written out as operands of that sum.
-/

namespace TensorGraph.Pass

variable {α : Type} [Scalar α]

/-- `(x · innerScale + innerBias) · scale + bias` as one scaling with shift. -/
def composeAffine (innerScale innerBias scale bias : α) : OperatorKind α :=
  .scalarAffine (innerScale * scale) (innerBias * scale + bias)

def mergeAffine (op : Operator α) (scale bias : α) (report : PassReport) :
    Edit α PassReport := do
  let g ← get
  match op.input?.bind (g.fusibleProducer? · op.id) with
  | none => return report
  | some inner =>
    match g.operatorAt? inner with
    | some { kind := .scalarAffine innerScale innerBias, inputs := x :: _, .. } => do
      Edit.setInputs op.id [x]
      Edit.setKind op.id (composeAffine innerScale innerBias scale bias)
      discard (Edit.removeOperator inner)
      return report.record 1
    | _ => return report

/-- The sum without activation that writes `v` for the sum `o` alone. -/
def nestedSum? (g : Graph α) (o : OperatorId) (v : VariableId) : Option (Operator α) :=
  match (g.fusibleProducer? v o).bind g.operatorAt? with
  | some op =>
    match op.kind with
    | .elementwiseAdd none => some op
    | _ => none
  | none => none

/-- A sum written out: its operands, and the nested sums that they take the place of. -/
structure FlatSum (α : Type) where
  operands : List VariableId
  nested : List (Operator α)

def FlatSum.keep (v : VariableId) (flat : FlatSum α) : FlatSum α :=
  { flat with operands := v :: flat.operands }

def FlatSum.takeUp (op : Operator α) (flat : FlatSum α) : FlatSum α :=
  { flat with nested := op :: flat.nested }

/-- Writes the operands `vs` of the sum `o` out. Where a nested sum writes an operand, its own
operands come in that place and are looked at in their turn. No more than `looks` operands are
looked at. -/
def flatten (g : Graph α) (o : OperatorId) : Nat → List VariableId → FlatSum α
  | 0, vs => ⟨vs, []⟩
  | _ + 1, [] => ⟨[], []⟩
  | looks + 1, v :: rest =>
    match nestedSum? g o v with
    | some nested => (flatten g o looks (nested.inputs ++ rest)).takeUp nested
    | none => (flatten g o looks rest).keep v

/-- How many operands are looked at to write the operands `vs` of the sum `o` out. What a nested sum
reads is not nested itself, so one look at each of its operands is enough. -/
def operandLooks (g : Graph α) (o : OperatorId) : List VariableId → Nat
  | [] => 0
  | v :: rest =>
    match nestedSum? g o v with
    | some nested => nested.inputs.length + operandLooks g o rest + 1
    | none => operandLooks g o rest + 1

def flattenSum (g : Graph α) (op : Operator α) : FlatSum α :=
  flatten g op.id (operandLooks g op.id op.inputs) op.inputs

def mergeSum (op : Operator α) (report : PassReport) : Edit α PassReport := do
  let g ← get
  let flat := flattenSum g op
  if flat.nested.isEmpty then return report
  else
    Edit.setInputs op.id flat.operands
    flat.nested.forM fun n => discard (Edit.removeOperator n.id)
    return report.record flat.nested.length

def mergeStep (op : Operator α) (report : PassReport) : Edit α PassReport :=
  match op.kind with
  | .scalarAffine scale bias => mergeAffine op scale bias report
  | .elementwiseAdd _ => mergeSum op report
  | _ => return report

def elementwiseMerging : Pass α := ⟨"merge_elementwise", sweep mergeStep⟩

end TensorGraph.Pass
