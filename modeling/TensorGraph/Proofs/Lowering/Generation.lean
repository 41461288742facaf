import Mathlib.Data.List.Forall2
import TensorGraph.Lowering.Device
import TensorGraph.Lowering.Portable
import TensorGraph.Proofs.Edit.Run
import TensorGraph.Proofs.Graph.Validation

/-!
# TensorGraph.Proofs.Lowering.Generation

When the stages of a backend succeed, and what they leave.

* `Generation.run`: a whole run, told once for both backends.
* `Lowers`: what a backend makes of one operator, if its shapes check.
* `traverse_ok_iff`, `lower_ok_iff`: the stages that can fail.
* `Generation.run_ok_iff`: a whole run.
* `Portable.generate_ok_iff`, `Device.generate_ok_iff`: the parts that descriptors are made of.
-/

namespace TensorGraph

variable {α β γ κ δ : Type}

open Edit

namespace Generation

theorem settle_ok_iff {e : Except GraphError β} {r r' : Generation} {y : β} :
    settle e r = .ok y r' ↔ e = .ok y ∧ r' = r := by
  cases e with
  | error err =>
    constructor
    · intro h
      cases h
    · rintro ⟨h, _⟩
      cases h
  | ok x =>
    constructor
    · intro h
      cases h
      exact ⟨rfl, rfl⟩
    · rintro ⟨h, rfl⟩
      cases h
      rfl

/-- A check in a stage of its own. -/
theorem enter_settle_ok_iff {stage : Stage} {e : Except GraphError β} {r r' : Generation} {y : β} :
    (do enter stage; settle e : Step β) r = .ok y r' ↔ e = .ok y ∧ r' = ⟨stage, r.history⟩ := by
  rw [run_bind_ok_iff]
  constructor
  · rintro ⟨_, _, entered, settled⟩
    cases entered
    exact settle_ok_iff.1 settled
  · intro h
    exact ⟨_, _, rfl, settle_ok_iff.2 h⟩

theorem ok_of_run' {step : Step β} {r : Generation} (h : (step.run' r).isSome = true) :
    ∃ y r', step r = .ok y r' := by
  delta EStateM.run' at h
  cases ran : step.run r with
  | ok y r' => exact ⟨y, r', ran⟩
  | error e r' =>
    rw [ran] at h
    cases h

theorem traverse_ok_iff {g : Graph α} {limits : Graph α → Except GraphError Unit}
    {order : List OperatorId} {r r' : Generation} : traverse g limits r = .ok order r' ↔
      (g.validate = .ok ⟨⟩ ∧ limits g = .ok ⟨⟩ ∧ g.topologicalOrder = .ok order) ∧
        r' = ⟨.traversing, r.history⟩ := by
  rw [traverse, enter_settle_ok_iff, Graph.except_check_bind_ok_iff,
    Graph.except_check_bind_ok_iff]

variable [Scalar α] {g : Graph α} {f : Operator α → Except GraphError κ}

/-- What becomes of an operator whose shapes check. -/
def Lowers (g : Graph α) (f : Operator α → Except GraphError κ) (o : OperatorId) (x : κ) : Prop :=
  ∃ op, g.operatorAt? o = some op ∧ g.checkOperator op = .ok ⟨⟩ ∧ f op = .ok x

theorem lowerOne_ok_iff {o : OperatorId} {r r' : Generation} {x : κ} :
    lowerOne g f o r = .ok x r' ↔ Lowers g f o x ∧ r' = ⟨.lowering o, r.history⟩ := by
  rw [lowerOne, enter_settle_ok_iff, Lowers]
  refine and_congr_left fun _ => ?_
  cases g.operatorAt? o with
  | none => exact ⟨(nomatch ·), fun ⟨_, h, _⟩ => nomatch h⟩
  | some op =>
    simp only [Graph.except_check_bind_ok_iff, Option.some.injEq, exists_eq_left']

/-- Each operator is lowered in its turn. -/
theorem lower_ok_iff {order : List OperatorId} {r : Generation} {xs : List κ} :
    (∃ r', lower g order f r = .ok xs r') ↔ List.Forall₂ (Lowers g f) order xs := by
  unfold lower
  induction order generalizing r xs with
  | nil =>
    rw [List.mapM_nil, List.forall₂_nil_left_iff]
    constructor
    · rintro ⟨_, h⟩
      cases h
      rfl
    · rintro rfl
      exact ⟨r, rfl⟩
  | cons o rest ih =>
    rw [List.mapM_cons, List.forall₂_cons_left_iff]
    simp only [run_bind_ok_iff, lowerOne_ok_iff]
    constructor
    · rintro ⟨_, x, _, ⟨one, rfl⟩, ys, _, others, done⟩
      cases done
      exact ⟨x, ys, one, ih.1 ⟨_, others⟩, rfl⟩
    · rintro ⟨x, ys, one, others, rfl⟩
      obtain ⟨r', others⟩ := ih.2 others
      exact ⟨r', x, _, ⟨one, rfl⟩, ys, r', others, rfl⟩

/-- A run of a backend, from its limits, what it makes of an operator, and how it puts a descriptor
together. No operator is met twice in a run, so what is made of one is a function of it, whatever
the backend keeps in mind. -/
def run (g : Graph α) (limits : Graph α → Except GraphError Unit)
    (f : Operator α → Except GraphError κ)
    (describe : List OperatorId → WeightBuffer α → List κ → δ) : Step (δ × WeightBuffer α) := do
  let order ← traverse g limits
  let xs ← lower g order f
  let weights ← pack g order
  finish
  return (describe order weights xs, weights)

theorem run_ok_iff {limits : Graph α → Except GraphError Unit}
    {describe : List OperatorId → WeightBuffer α → List κ → δ} {r : Generation}
    {y : δ × WeightBuffer α} : (∃ r', run g limits f describe r = .ok y r') ↔
    ∃ order xs, (g.validate = .ok ⟨⟩ ∧ limits g = .ok ⟨⟩ ∧ g.topologicalOrder = .ok order) ∧
      List.Forall₂ (Lowers g f) order xs ∧
      y = (describe order (.pack g order) xs, .pack g order) := by
  constructor
  · rintro ⟨r', h⟩
    obtain ⟨order, r₁, traversed, h⟩ := run_bind_ok_iff.1 h
    obtain ⟨xs, r₂, lowered, h⟩ := run_bind_ok_iff.1 h
    obtain ⟨weights, r₃, packed, h⟩ := run_bind_ok_iff.1 h
    cases packed
    cases h
    exact ⟨order, xs, (traverse_ok_iff.1 traversed).1, lower_ok_iff.1 ⟨r₂, lowered⟩, rfl⟩
  · rintro ⟨order, xs, traversed, lowered, rfl⟩
    obtain ⟨r₂, lowered⟩ := lower_ok_iff.2 lowered
    refine ⟨⟨.done, r₂.history ++ [.packing]⟩, ?_⟩
    rw [run, run_bind_ok (traverse_ok_iff.2 ⟨traversed, rfl⟩), run_bind_ok lowered]
    rfl

end Generation

open Generation

variable [Scalar α] {g : Graph α}

theorem Portable.generate_eq_run : generate g =
    run g (fun _ => .ok ⟨⟩) (fun op => .ok (kernel g op)) fun _ weights kernels =>
      ⟨.of g weights, kernels⟩ := rfl

theorem Portable.generate_ok_iff {r : Generation} {y : PortableDescriptor α × WeightBuffer α} :
    (∃ r', generate g r = .ok y r') ↔ ∃ order kernels,
      (g.validate = .ok ⟨⟩ ∧ g.topologicalOrder = .ok order) ∧
      List.Forall₂ (Lowers g fun op => .ok (kernel g op)) order kernels ∧
      y = (⟨.of g (.pack g order), kernels⟩, .pack g order) := by
  rw [generate_eq_run, run_ok_iff]
  simp only [true_and]

namespace Device

theorem generate_eq_run (workgroupSize : Nat) : generate g workgroupSize =
    run g checkAddressable (lowerOperator g workgroupSize) (descriptor g) := rfl

theorem generate_ok_iff {workgroupSize : Nat} {r : Generation}
    {y : DeviceDescriptor × WeightBuffer α} :
    (∃ r', generate g workgroupSize r = .ok y r') ↔ ∃ order lowered,
      (g.validate = .ok ⟨⟩ ∧ checkAddressable g = .ok ⟨⟩ ∧ g.topologicalOrder = .ok order) ∧
      List.Forall₂ (Lowers g (lowerOperator g workgroupSize)) order lowered ∧
      y = (descriptor g order (.pack g order) lowered, .pack g order) :=
  run_ok_iff

omit [Scalar α] in
theorem lowerOperator_ok_iff {workgroupSize : Nat} {op : Operator α}
    {x : Operator α × KernelSpec α} : lowerOperator g workgroupSize op = .ok x ↔
      x.1 = op ∧ KernelSpec.ofOperator g op workgroupSize = .ok x.2 := by
  rw [lowerOperator, Graph.except_bind_ok_iff]
  constructor
  · rintro ⟨s, planned, done⟩
    cases done
    exact ⟨rfl, planned⟩
  · rintro ⟨rfl, planned⟩
    exact ⟨x.2, planned, rfl⟩

/-- A descriptor is made from an order of the operators, and has a kernel for each of them. -/
theorem generate_ok {workgroupSize : Nat} {r r' : Generation} {d : DeviceDescriptor}
    {weights : WeightBuffer α} (h : generate g workgroupSize r = .ok (d, weights) r') :
    ∃ order lowered, checkAddressable g = .ok ⟨⟩ ∧ g.topologicalOrder = .ok order ∧
      List.Forall₂ (fun o x => g.operatorAt? o = some x.1) order lowered ∧
      weights = .pack g order ∧ d = descriptor g order weights lowered := by
  obtain ⟨order, lowered, ⟨_, addressed, sorted⟩, each, made⟩ := generate_ok_iff.1 ⟨r', h⟩
  cases made
  refine ⟨order, lowered, addressed, sorted, each.imp ?_, rfl, rfl⟩
  rintro o x ⟨op, ho, _, lowers⟩
  rw [(lowerOperator_ok_iff.1 lowers).1]
  exact ho

end Device

end TensorGraph
