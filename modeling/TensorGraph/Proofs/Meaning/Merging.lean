import TensorGraph.Proofs.Evaluation.Exact
import TensorGraph.Proofs.Evaluation.Grid
import TensorGraph.Proofs.Meaning.Refinement

/-!
# TensorGraph.Proofs.Meaning.Merging

Elementwise operators mean the same before and after they are merged.

* `scalarAffine_composed`: two scalings with shift, one after the other, are the composed one.
* `elementwiseAdd_eq_some_iff`: a sum adds its operands column by column, so that operands may be
  regrouped: `columnSum_flatMap`.
* `elementwiseMerging_means`: so the pass keeps the outputs up to rounding.
-/

namespace TensorGraph

open TensorGraph.Graph Edit Pass

section

variable {α : Type} [ExactScalar α]

/-! ## Kernels -/

namespace Kernel

theorem scalarAffine_composed (scale bias innerScale innerBias : α) (x : Array α) :
    scalarAffine (innerScale * scale) (innerBias * scale + bias) x =
      scalarAffine scale bias (scalarAffine innerScale innerBias x) := by
  rw [scalarAffine, scalarAffine, scalarAffine, Array.map_map]
  refine Array.map_congr_left fun v _ => ?_
  show v * (innerScale * scale) + (innerBias * scale + bias) =
    (v * innerScale + innerBias) * scale + bias
  ring

/-- Sum of the elements `i` of some buffers. -/
def columnSum (operands : List (Array α)) (i : Nat) : α :=
  (operands.map fun x => x[i]?.getD 0).sum

theorem columnSum_cons (x : Array α) (operands : List (Array α)) (i : Nat) :
    columnSum (x :: operands) i = x[i]?.getD 0 + columnSum operands i := by
  rw [columnSum, columnSum, List.map_cons, List.sum_cons]

theorem columnSum_append (operands operands' : List (Array α)) (i : Nat) :
    columnSum (operands ++ operands') i = columnSum operands i + columnSum operands' i := by
  rw [columnSum, columnSum, columnSum, List.map_append, List.sum_append]

/-- Operands in the places of one whose elements are their sums. -/
theorem columnSum_flatMap {β : Type} {φ : β → Array α} {block : β → List β} {i : Nat}
    {vs : List β} (blocks : ∀ v ∈ vs, columnSum ((block v).map φ) i = (φ v)[i]?.getD 0) :
    columnSum ((vs.flatMap block).map φ) i = columnSum (vs.map φ) i := by
  induction vs with
  | nil => rfl
  | cons v vs ih =>
    rw [List.flatMap_cons, List.map_append, columnSum_append, blocks v List.mem_cons_self,
      ih fun u hu => blocks u (List.mem_cons_of_mem v hu), List.map_cons, columnSum_cons]

theorem foldlM_column {operands : List (Array α)} {i : Nat} (inside : ∀ x ∈ operands, i < x.size)
    (start : α) : operands.foldlM (fun acc x => do return acc + (← x[i]?)) start =
      some (start + columnSum operands i) := by
  induction operands generalizing start with
  | nil => exact congrArg some (add_zero start).symm
  | cons x operands ih =>
    obtain ⟨v, here⟩ := getElem?_total (inside x List.mem_cons_self)
    rw [List.foldlM_cons, here, columnSum_cons, here, Option.getD_some, ← add_assoc]
    exact ih (fun y hy => inside y (List.mem_cons_of_mem x hy)) (start + v)

theorem elementwiseAdd_eq_some_iff (fused : Option (Activation α)) {n : Nat}
    {operands : List (Array α)} (some_operand : operands ≠ [])
    (sizes : ∀ x ∈ operands, x.size = n) {r : Array α} :
    elementwiseAdd fused operands = some r ↔
      r.size = n ∧ ∀ i < n, r[i]? = some (Activation.applyTo fused (columnSum operands i)) := by
  have element {i : Nat} (hi : i < n) : (do
      let sum ← operands.foldlM (fun acc x => do return acc + (← x[i]?)) Scalar.emptySum
      return Activation.applyTo fused sum) =
        some (Activation.applyTo fused (columnSum operands i)) := by
    rw [foldlM_column (fun x hx => (sizes x hx).symm ▸ hi), ExactScalar.emptySum_eq, zero_add]
    rfl
  obtain ⟨x, rest, rfl⟩ := List.exists_cons_of_ne_nil some_operand
  have first : x.size = n := sizes x List.mem_cons_self
  show tabulate (List.range x.size) _ = some r ↔ _
  rw [tabulate_eq_some_iff, List.length_range, first]
  refine and_congr_right fun _ => ⟨fun each i hi => ?_, fun each i j hj => ?_⟩
  · rw [← each i i (List.getElem?_range hi), element hi]
  · obtain ⟨hi, rfl⟩ := List.getElem?_eq_some_iff.1 hj
    rw [List.length_range] at hi
    rw [List.getElem_range, each i hi, element hi]

end Kernel

/-! ## Changes -/

variable {g : Graph α} {rank : OperatorId → Nat} {O' : Outline α} {o : OperatorId}
  {gone : List OperatorId} {op merged : Operator α} {w : VariableId}

/-- Operands of a sum, and of the sums nested in it, have the size of its result. -/
theorem operand_sizes (linked : g.Linked) (sound : g.outline.Sound rank)
    (ho : g.operatorAt? o = some op) {fused : Option (Activation α)}
    (kind : op.kind = .elementwiseAdd fused) (outputs : op.outputs = [w])
    {φ : VariableId → Array α} (assigned : g.outline.Assigned φ) :
    op.inputs.map φ ≠ [] ∧ ∀ x ∈ op.inputs.map φ, x.size = (g.outline.shape w).size := by
  obtain ⟨w', outputs', length, shapes⟩ := sound.elementwiseAdd ho kind
  cases outputs.symm.trans outputs'
  refine ⟨fun e => ?_, fun x hx => ?_⟩
  · rw [List.map_eq_nil_iff.1 e] at length
    cases length
  · obtain ⟨u, hu, rfl⟩ := List.mem_map.1 hx
    rw [assigned_size linked assigned (linked.input_live ⟨op, ho, hu⟩), shapes u hu]

/-- A flattened sum has the elements of the sum. -/
theorem elementwiseAdd_flattened (linked : g.Linked) (sound : g.outline.Sound rank)
    (ho : g.operatorAt? o = some op) {fused : Option (Activation α)}
    (kind : op.kind = .elementwiseAdd fused) (outputs : op.outputs = [w])
    {block : VariableId → List VariableId}
    (blocks : ∀ v ∈ op.inputs, block v = [v] ∨ ∃ p ∈ gone, ∃ n, g.operatorAt? p = some n ∧
      n.kind = .elementwiseAdd none ∧ n.inputs = block v ∧ n.outputs = [v])
    {φ : VariableId → Array α} (assigned : g.outline.Assigned φ)
    (computes : ∀ c ∈ o :: gone, ∀ opc, g.operatorAt? c = some opc → g.outline.Computes φ opc) :
    Kernel.elementwiseAdd fused ((op.inputs.flatMap block).map φ) = some (φ w) := by
  obtain ⟨nonempty, sizes⟩ := operand_sizes linked sound ho kind outputs assigned
  have run := computes o List.mem_cons_self op ho w outputs
  rw [kind] at run
  obtain ⟨size, each⟩ := (Kernel.elementwiseAdd_eq_some_iff fused nonempty sizes).1 run
  -- The operands in one block, with their sum.
  have inner (v : VariableId) (hv : v ∈ op.inputs) : block v ≠ [] ∧
      (∀ u ∈ block v, (φ u).size = (g.outline.shape w).size) ∧
      ∀ i < (g.outline.shape w).size,
        Kernel.columnSum ((block v).map φ) i = (φ v)[i]?.getD 0 := by
    have here : (φ v).size = (g.outline.shape w).size := sizes _ (List.mem_map_of_mem hv)
    rcases blocks v hv with e | ⟨p, hp, n, hn, innerKind, e, innerOutputs⟩
    · rw [e]
      refine ⟨List.cons_ne_nil v [], fun u hu => List.mem_singleton.1 hu ▸ here, fun i _ => ?_⟩
      rw [List.map_singleton, Kernel.columnSum_cons]
      exact add_zero _
    · obtain ⟨some_inner, innerSizes⟩ :=
        operand_sizes linked sound hn innerKind innerOutputs assigned
      have same : (g.outline.shape v).size = (g.outline.shape w).size := by
        rw [← here, assigned_size linked assigned (linked.input_live ⟨op, ho, hv⟩)]
      have sum := computes p (List.mem_cons_of_mem o hp) n hn v innerOutputs
      rw [innerKind] at sum
      obtain ⟨_, elements⟩ :=
        (Kernel.elementwiseAdd_eq_some_iff none some_inner innerSizes).1 sum
      rw [← e]
      refine ⟨fun none_left => some_inner (by rw [none_left]; rfl),
        fun u hu => (innerSizes _ (List.mem_map_of_mem hu)).trans same, fun i hi => ?_⟩
      rw [elements i (same ▸ hi)]
      rfl
  refine (Kernel.elementwiseAdd_eq_some_iff fused (fun e => ?_) fun x hx => ?_).2
    ⟨size, fun i hi => ?_⟩
  · obtain ⟨v, hv⟩ := List.exists_mem_of_ne_nil op.inputs fun e => nonempty (by rw [e]; rfl)
    obtain ⟨u, hu⟩ := List.exists_mem_of_ne_nil (block v) (inner v hv).1
    have : u ∈ op.inputs.flatMap block := List.mem_flatMap.2 ⟨v, hv, hu⟩
    rw [List.map_eq_nil_iff.1 e] at this
    cases this
  · obtain ⟨u, hu, rfl⟩ := List.mem_map.1 hx
    obtain ⟨v, hv, hu⟩ := List.mem_flatMap.1 hu
    exact (inner v hv).2.1 u hu
  · rw [Kernel.columnSum_flatMap fun v hv => (inner v hv).2.2 i hi]
    exact each i hi

theorem MergeChange.refines_of_field (linked : g.Linked) (sound : g.outline.Sound rank)
    (change : MergeChange rank g.outline o O') : g.outline.Refines O' := by
  obtain ⟨gone, op, merged, w, ho, collapse, _, _, form, _⟩ := change
  have outputs := collapse.last_outputs sound ho
  refine collapse.refines linked fun φ before after computes => ?_
  cases form with
  | affine p inner v x scale bias innerScale innerBias mem live inner_kind inner_inputs
      inner_outputs kind inputs kind' inputs' =>
    have run := computes o List.mem_cons_self op ho w outputs
    have innerRun := computes p (List.mem_cons_of_mem o mem) inner live v inner_outputs
    rw [kind, inputs] at run
    rw [inner_kind, inner_inputs] at innerRun
    have value : Kernel.scalarAffine scale bias (φ v) = φ w := Option.some.inj run
    have innerValue : Kernel.scalarAffine innerScale innerBias (φ x) = φ v :=
      Option.some.inj innerRun
    rw [kind', inputs', ← value, ← innerValue, ← Kernel.scalarAffine_composed]
    rfl
  | sum fused block kind kind' inputs' blocks =>
    rw [kind', inputs']
    exact elementwiseAdd_flattened linked sound ho kind outputs blocks before computes

end

variable {α : Type} [s : Scalar α]

theorem MergeChange.refines (exact : Scalar.IsExact α) {g : Graph α} {rank : OperatorId → Nat}
    {O' : Outline α} {o : OperatorId} (linked : g.Linked) (sound : g.outline.Sound rank)
    (change : MergeChange rank g.outline o O') : g.outline.Refines O' := by
  obtain ⟨exact, rfl⟩ := exact
  exact change.refines_of_field linked sound

/-- Merging succeeds on every checked graph, and keeps every output where scalars are those of a
field. Then no value that is read once joins a sum without activation to a sum, or a scaling with
shift to another one. -/
theorem Graph.elementwiseMerging_means {g : Graph α} (h : g.Checked) :
    ∃ report g', elementwiseMerging.run g = .ok report g' ∧
      (Scalar.IsExact α → ∀ inputs, g.Fits inputs →
        ∃ outputs, g.evaluate inputs = .ok outputs ∧ g'.evaluate inputs = .ok outputs) ∧
      ∀ v p o producer reader, g'.producer? v = some p → g'.singleUseConsumer? v = some o →
        g'.operatorAt? p = some producer → g'.operatorAt? o = some reader →
        (∀ fused, reader.kind = .elementwiseAdd fused → producer.kind ≠ .elementwiseAdd none) ∧
        ∀ scale bias innerScale innerBias, reader.kind = .scalarAffine scale bias →
          producer.kind ≠ .scalarAffine innerScale innerBias := by
  obtain ⟨report, g', run, swept, _⟩ := sweep_run mergeStep_rule h.tidy
  refine ⟨report, g', run,
    fun exact => swept.evaluate h.tidy (swept.refines (MergeChange.refines exact)),
    fun v p o producer reader produced single hp ho => ?_⟩
  obtain ⟨once, inner⟩ := (singleUseConsumer?_iff swept.tidy.linked).1 single
  have apart : ¬Mergeable producer.kind reader.kind := swept.quiet o v p producer reader
    ⟨(producer?_iff swept.tidy.linked).1 produced, once, inner⟩ hp ho
  refine ⟨fun fused kind kind' => apart ?_, fun _ _ _ _ kind kind' => apart ?_⟩
  · rw [kind, kind']
    exact .sum fused
  · rw [kind, kind']
    exact .affine _ _ _ _

/-- A sum in which a nested one adds a value to itself, then two scalings with shift. -/
def Graph.sumOfSums : Graph ℚ :=
  afterCalls .empty
    [.addVariable "x" [2], .addVariable "y" [2], .addVariable "z" [2], .addVariable "u" [2],
      .addVariable "w" [2], .addOperator (.elementwiseAdd none) [⟨0⟩, ⟨0⟩] [⟨1⟩],
      .addOperator (.elementwiseAdd (some .relu)) [⟨0⟩, ⟨1⟩] [⟨2⟩],
      .addOperator (.scalarAffine 2 1) [⟨2⟩] [⟨3⟩],
      .addOperator (.scalarAffine (1 / 3) 0) [⟨3⟩] [⟨4⟩], .designateInputs [⟨0⟩],
      .designateOutputs [⟨4⟩]]

theorem Graph.sumOfSums_checked : sumOfSums.Checked where
  reachable := Reachable.empty.afterCalls _
  valid := by decide
  inputs_free := by decide

theorem Graph.elementwiseMerging_means_sumOfSums : sumOfSums.Checked ∧
    sumOfSums.Fits [#[5, -7]] ∧ Scalar.IsExact ℚ ∧ ∃ report g' outputs,
      elementwiseMerging.run sumOfSums = .ok report g' ∧
      sumOfSums.evaluate [#[5, -7]] = .ok outputs ∧ g'.evaluate [#[5, -7]] = .ok outputs := by
  have fits : sumOfSums.Fits [#[5, -7]] := by
    show _ = _
    decide
  obtain ⟨report, g', run, same, _⟩ := elementwiseMerging_means sumOfSums_checked
  obtain ⟨outputs, before, after⟩ := same isExact_rat _ fits
  exact ⟨sumOfSums_checked, fits, isExact_rat, report, g', outputs, run, before, after⟩

end TensorGraph
