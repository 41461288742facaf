import TensorGraph.Proofs.Lowering.Generation
import TensorGraph.Proofs.Lowering.Packing

/-!
# TensorGraph.Proofs.Lowering.Placement

Where the variables of a graph lie in the buffers of a descriptor, and how kernels find them.

* `DeviceDescriptor.Places`: a start leads to the whole of a variable in one of the buffers.
* `DeviceKernel.Placed`: the parameters of a kernel are the places of its operands and its output.
* `checked_of_generate`: a graph for which there is a descriptor has passed all checks.
* `dataIds_eq`: what is allocated, and in which order.
* `generate_places`: allocation and parameters of a descriptor.
-/

namespace TensorGraph

variable {α : Type}

open Layout WeightBuffer
open Shader (Buffer)

namespace DeviceDescriptor

/-- Where a variable starts in a buffer, if it lies there. -/
def start? (d : DeviceDescriptor) : Buffer → VariableId → Option Nat
  | .weights, v => (d.interface.weights.find? (·.id = v)).map WeightEntry.start
  | .data, v => (d.allocation.find? (·.id = v)).map Allocation.offset

/-- Number of elements of a buffer. -/
def capacity (d : DeviceDescriptor) : Buffer → Nat
  | .weights => d.interface.weightBytes / 4
  | .data => d.dataElements

/-- A variable starts at `start` in a buffer, which has room for all of it. -/
def Places (d : DeviceDescriptor) (g : Graph α) (b : Buffer) (v : VariableId) (start : Nat) :
    Prop :=
  d.start? b v = some start ∧ start + g.elements v ≤ d.capacity b

end DeviceDescriptor

/-- The parameters of a kernel are the starts of its operands, each in the buffer that the
specification says, and then the start of its output. -/
structure DeviceKernel.Placed (k : DeviceKernel) (d : DeviceDescriptor) (g : Graph α)
    (s : KernelSpec α) : Prop where
  count : k.params.length = k.inputs.length + 1
  operand : ∀ (j : Nat) v, k.inputs[j]? = some v → ∃ start, k.params[j]? = some start ∧
    (s.operand j).buffer = (if g.isConstant v then .weights else .data) ∧
      d.Places g (s.operand j).buffer v start
  output : ∃ v start, k.outputs = [v] ∧ k.params.getLast? = some start ∧ d.Places g .data v start

/-- Planning keeps the operands as they are. -/
theorem KernelSpec.ofOperator_inputs {g : Graph α} {op : Operator α} {n : Nat} {s : KernelSpec α}
    (h : ofOperator g op n = .ok s) : s.inputs = op.inputs.map (operandOf g) := by
  unfold ofOperator at h
  cases kind : op.kind <;> rw [kind] at h <;> cases h <;> rfl

theorem KernelSpec.operand_of {g : Graph α} {op : Operator α} {n : Nat} {s : KernelSpec α}
    (h : ofOperator g op n = .ok s) {j : Nat} {v : VariableId} (hv : op.inputs[j]? = some v) :
    s.operand j = operandOf g v := by
  rw [operand, ofOperator_inputs h, List.getD_eq_getElem?_getD, List.getElem?_map, hv]
  rfl

namespace Device

variable {g : Graph α} {order : List OperatorId}

theorem allocateNew_tiles (g : Graph α) (seen : List VariableId) (start : Nat)
    (vs : List VariableId) : Tiles Allocation.offset Allocation.length start
      (allocateNew g seen start vs) (start + dataElements (allocateNew g seen start vs)) := by
  induction vs generalizing seen start with
  | nil => rfl
  | cons v rest ih =>
    rw [allocateNew]
    split
    · exact ih seen start
    · next x _ =>
      split
      · exact ih seen start
      · refine ⟨rfl, ?_⟩
        have later := ih (v :: seen) (start + x.size)
        rwa [Nat.add_assoc] at later

/-- Spans leave no gap and do not overlap. -/
theorem allocate_tiles (g : Graph α) (order : List OperatorId) :
    Tiles Allocation.offset Allocation.length 0 (allocate g order)
      (dataElements (allocate g order)) := by
  have tiles := allocateNew_tiles g [] 0 (g.inputs ++ order.flatMap (resultsOf g))
  rwa [Nat.zero_add] at tiles

theorem allocate_ids (g : Graph α) (order : List OperatorId) :
    (allocate g order).map Allocation.id = dataIds g order := by
  rw [allocate_eq, List.map_map]
  exact List.map_id _

theorem mem_resultsOf {o : OperatorId} {v : VariableId} :
    v ∈ resultsOf g o ↔ g.outline.Writes o v := by
  rw [resultsOf]
  constructor
  · intro hv
    split at hv
    · next op ho => exact ⟨op, ho, hv⟩
    · cases hv
  · rintro ⟨op, ho, hv⟩
    have ho' : g.operatorAt? o = some op := ho
    rw [ho']
    exact hv

/-- Operators do not share results, so a sorted list of them has each result once. -/
theorem results_nodup (h : g.Linked) (once : order.Nodup) :
    (order.flatMap (resultsOf g)).Nodup := by
  refine List.nodup_flatMap.2 ⟨fun o _ => ?_, once.imp fun {o p} ne v hv hv' => ne ?_⟩
  · rw [resultsOf]
    split
    · next op ho => exact h.outputs_nodup ho
    · exact List.nodup_nil
  · exact h.writer_unique (mem_resultsOf.1 hv) (mem_resultsOf.1 hv')

variable [Scalar α] {rank : OperatorId → Nat}

/-- In a sound graph nothing that is met on the way is skipped but repeated inputs. -/
theorem dataIds_eq (h : g.Linked) (sound : g.outline.Sound rank) (once : order.Nodup) :
    dataIds g order = g.inputs.eraseDups ++ order.flatMap (resultsOf g) := by
  have inputs : ∀ v ∈ g.inputs, g.isData v = true := fun v hv =>
    Graph.isData_iff.2 ⟨h.designated_live (.inl hv), (Graph.payload?_eq g v).trans
      (sound.inputs_free hv).1⟩
  have written : ∀ v ∈ order.flatMap (resultsOf g), ∃ o, g.outline.Writes o v := by
    intro v hv
    obtain ⟨o, _, hv⟩ := List.mem_flatMap.1 hv
    exact ⟨o, mem_resultsOf.1 hv⟩
  have results : ∀ v ∈ order.flatMap (resultsOf g), g.isData v = true := by
    intro v hv
    obtain ⟨o, write⟩ := written v hv
    exact Graph.isData_iff.2 ⟨h.output_live write, (Graph.payload?_eq g v).trans
      (sound.computed write)⟩
  have apart : (order.flatMap (resultsOf g)).removeAll g.inputs =
      order.flatMap (resultsOf g) := by
    refine List.filter_eq_self.2 fun v hv => ?_
    obtain ⟨o, write⟩ := written v hv
    simpa using fun input => (sound.inputs_free input).2 o write
  rw [dataIds, fresh_eq, removeAll_nil, List.filter_append, List.filter_eq_self.2 inputs,
    List.filter_eq_self.2 results, List.eraseDups_append, apart,
    eraseDups_of_nodup (results_nodup h once)]

/-- Every variable of a checked graph that is no constant has a source, and so a span. -/
theorem mem_dataIds_iff (checked : g.Checked) (sorted : g.topologicalOrder = .ok order)
    {v : VariableId} : v ∈ dataIds g order ↔ g.isData v = true := by
  obtain ⟨linked, ⟨rank, sound⟩, needed⟩ := checked.tidy
  refine ⟨fun mem => (mem_fresh.1 mem).2.1, fun data => ?_⟩
  obtain ⟨live, unset⟩ := Graph.isData_iff.1 data
  have sweep := topologicalOrder_sorted linked sorted
  have placed (source : v ∈ g.inputs ∨ ∃ o, g.outline.Writes o v) : v ∈ dataIds g order := by
    refine mem_dataIds live unset (source.imp_right fun ⟨o, write⟩ => ⟨o, ?_, write⟩)
    exact (sweep.mem_iff o).2 (write.imp fun _ found => found.1)
  have used (use : (∃ o, g.outline.Reads o v) ∨ v ∈ g.outputs) : v ∈ dataIds g order := by
    rcases sound.sourced use with set | written | input
    · exact absurd ((Graph.payload?_eq g v).symm.trans unset) set
    · exact placed (.inr written)
    · exact placed (.inl input)
  rcases needed v live with written | read | input | output
  · exact placed (.inr written)
  · exact used (.inl read)
  · exact placed (.inl input)
  · exact used (.inr output)

/-- A graph that lowers has passed all checks. -/
theorem checked_of_generate (reachable : g.Reachable)
    (free : ∀ v ∈ g.inputs, g.payload? v = none ∧ g.producer? v = none)
    (valid : g.validate = .ok ⟨⟩) (sorted : g.topologicalOrder = .ok order) {n : Nat}
    {lowered : Lowered α}
    (each : List.Forall₂ (Generation.Lowers g (lowerOperator g n)) order lowered) :
    g.Checked where
  reachable := reachable
  valid := by
    have linked := reachable.linked
    have checks : ∀ o ∈ order, ∃ op, g.operatorAt? o = some op ∧ g.checkOperator op = .ok ⟨⟩ := by
      refine ((List.forall₂_and_left (R := fun _ _ => True) order lowered).1 (each.imp ?_)).1
      rintro o x ⟨op, ho, check, _⟩
      exact ⟨⟨op, ho, check⟩, trivial⟩
    refine (Graph.check_ok_iff linked).2 ⟨valid, fun o op ho => ?_⟩
    have mem := ((topologicalOrder_sorted linked sorted).mem_iff o).2 ⟨op, ho⟩
    obtain ⟨op', ho', check⟩ := checks o mem
    cases ho.symm.trans ho'
    exact check
  inputs_free := free

section

variable {lowered : Lowered α} {v : VariableId}

theorem places_constant (h : g.Linked) (addressed : checkAddressable g = .ok ⟨⟩)
    (hv : v ∈ constantIds g order) : (descriptor g order (pack g order) lowered).Places g .weights v
      (word (startOf (pack g order) (allocate g order) v)) := by
  have lengths : ∀ u ∈ constantIds g order, (elementsOf g u).length = g.elements u :=
    fun u hu => elementsOf_length h (mem_fresh.1 hu).2.1
  rw [startOf_constant h addressed hv]
  constructor
  · have entry : (pack g order).entries.find? (·.id = v) =
        some (entryIn g 0 (constantIds g order) v) := (entry?_pack h).trans (if_pos hv)
    show ((pack g order).entries.find? (·.id = v)).map WeightEntry.start = _
    rw [entry]
    show some (4 * (0 + _) / 4) = _
    congr 1
    omega
  · have inside := startIn_add_le g.elements hv
    show _ ≤ 4 * (pack g order).data.length / 4
    rw [pack_eq h, length_flatMap lengths]
    omega

theorem places_data (h : g.Linked) (addressed : checkAddressable g = .ok ⟨⟩)
    (hv : v ∈ dataIds g order) : (descriptor g order (pack g order) lowered).Places g .data v
      (word (startOf (pack g order) (allocate g order) v)) := by
  rw [startOf_data h addressed hv]
  constructor
  · show ((allocate g order).find? (·.id = v)).map Allocation.offset = _
    rw [find?_allocate, if_pos hv]
    exact congrArg some (Nat.zero_add _)
  · show _ ≤ dataElements (allocate g order)
    rw [dataElements_eq]
    exact startIn_add_le g.elements hv

/-- The start that a kernel gets for a live variable leads to it. -/
theorem places (checked : g.Checked) (addressed : checkAddressable g = .ok ⟨⟩)
    (sorted : g.topologicalOrder = .ok order) (live : g.outline.Live v) :
    (descriptor g order (pack g order) lowered).Places g (KernelSpec.operandOf g v).buffer v
      (word (startOf (pack g order) (allocate g order) v)) := by
  have linked := checked.reachable.linked
  rw [KernelSpec.operandOf]
  split
  · next constant =>
    exact places_constant linked addressed ((mem_constantIds_iff checked sorted).2 constant)
  · next varies =>
    refine places_data linked addressed ((mem_dataIds_iff checked sorted).2 ?_)
    exact Graph.isData_iff.2 ⟨live, Option.not_isSome_iff_eq_none.1 varies⟩

/-- The kernel of an operator finds its operands and its output. -/
theorem kernel_placed (checked : g.Checked) (addressed : checkAddressable g = .ok ⟨⟩)
    (sorted : g.topologicalOrder = .ok order) {o : OperatorId} {op : Operator α}
    (ho : g.operatorAt? o = some op) {n : Nat} {s : KernelSpec α}
    (planned : KernelSpec.ofOperator g op n = .ok s) :
    (kernel (pack g order) (allocate g order) op s).Placed
      (descriptor g order (pack g order) lowered) g s := by
  obtain ⟨linked, ⟨rank, sound⟩, _⟩ := checked.tidy
  obtain ⟨w, outputs, _⟩ := sound.result ho
  have write : g.outline.Writes o w := (Outline.writes_iff ho).2 (outputs ▸ List.mem_cons_self)
  constructor
  case count =>
    show (List.map _ (op.inputs ++ op.outputs)).length = op.inputs.length + 1
    rw [outputs, List.length_map, List.length_append, List.length_singleton]
  case operand =>
    intro j v (hv : op.inputs[j]? = some v)
    have read : g.outline.Reads o v := (Outline.reads_iff ho).2 (List.mem_of_getElem? hv)
    have inside : j < op.inputs.length := (List.getElem?_eq_some_iff.1 hv).1
    rw [KernelSpec.operand_of planned hv]
    refine ⟨_, ?_, rfl, places checked addressed sorted (linked.input_live read)⟩
    show ((op.inputs ++ op.outputs).map _)[j]? = _
    rw [List.getElem?_map, List.getElem?_append_left inside, hv]
    rfl
  case output =>
    have varies : g.isConstant w ≠ true := fun constant =>
      Graph.isConstant_iff.1 constant (sound.computed write)
    have place : (descriptor g order (pack g order) lowered).Places g _ w _ :=
      places checked addressed sorted (linked.output_live write)
    rw [KernelSpec.operandOf, if_neg varies] at place
    refine ⟨w, _, outputs, ?_, place⟩
    show ((op.inputs ++ op.outputs).map _).getLast? = _
    rw [outputs, List.map_append, List.map_singleton, List.getLast?_append,
      List.getLast?_singleton]
    rfl

end

end Device

open Device

/-- The data buffer of a descriptor has exactly the live variables that are no constants, each
once: the inputs of the graph, then the results of the operators in the order of execution. They
lie back to back from the start of the buffer to its end. The parameters of each kernel, of which
there is one for every operand and one for the output, are where these lie. -/
theorem Graph.generate_places [Scalar α] {g : Graph α} (reachable : g.Reachable)
    (free : ∀ v ∈ g.inputs, g.payload? v = none ∧ g.producer? v = none) {workgroupSize : Nat}
    {r r' : Generation} {d : DeviceDescriptor} {weights : WeightBuffer α}
    (generated : generate g workgroupSize r = .ok (d, weights) r') :
    ∃ order, g.topologicalOrder = .ok order ∧
      (∀ v, (d.allocation.map Allocation.id).count v =
        if (g.variableAt? v).isSome ∧ ¬g.isConstant v then 1 else 0) ∧
      d.allocation.map Allocation.id = g.inputs.eraseDups ++ order.flatMap (resultsOf g) ∧
      (∀ a ∈ d.allocation, a.length = (g.shape a.id).size) ∧
      Tiles Allocation.offset Allocation.length 0 d.allocation d.dataElements ∧
      List.Forall₂ (fun o k => ∃ op s, g.operatorAt? o = some op ∧
        KernelSpec.ofOperator g op workgroupSize = .ok s ∧ k.inputs = op.inputs ∧
        k.outputs = op.outputs ∧ k.Placed d g s) order d.kernels := by
  obtain ⟨order, lowered, ⟨valid, addressed, sorted⟩, each, made⟩ :=
    generate_ok_iff.1 ⟨r', generated⟩
  cases made
  have checked := checked_of_generate reachable free valid sorted each
  obtain ⟨linked, ⟨rank, sound⟩, _⟩ := checked.tidy
  have once := (topologicalOrder_sorted linked sorted).nodup
  refine ⟨order, sorted, fun v => ?_, (allocate_ids g order).trans (dataIds_eq linked sound once),
    ?_, allocate_tiles g order, ?_⟩
  · have distinct : (dataIds g order).Nodup := fresh_nodup _ _ _
    show ((allocate g order).map Allocation.id).count v = _
    rw [allocate_ids, distinct.count]
    refine if_congr ((mem_dataIds_iff checked sorted).trans ?_) rfl rfl
    rw [Graph.isData_iff, live_iff, Option.isSome_iff_exists, Graph.isConstant,
      Option.not_isSome_iff_eq_none]
  · show ∀ a ∈ allocate g order, _
    rw [allocate_eq]
    intro a ha
    obtain ⟨v, _, rfl⟩ := List.mem_map.1 ha
    rfl
  · show List.Forall₂ _ order (lowered.map _)
    refine List.forall₂_map_right_iff.2 (each.imp ?_)
    rintro o ⟨op, s⟩ ⟨op', ho, _, lowers⟩
    obtain ⟨rfl, planned⟩ := lowerOperator_ok_iff.1 lowers
    exact ⟨op, s, ho, planned, rfl, rfl, kernel_placed checked addressed sorted ho planned⟩

theorem Graph.generate_places_sharedConstant : sharedConstant.Reachable ∧
    (∀ v ∈ sharedConstant.inputs,
      sharedConstant.payload? v = none ∧ sharedConstant.producer? v = none) ∧
    ∃ d weights r, generate sharedConstant 64 .start = .ok (d, weights) r ∧
      d.allocation.map Allocation.id = [⟨1⟩, ⟨3⟩, ⟨4⟩] ∧
      Tiles Allocation.offset Allocation.length 0 d.allocation d.dataElements ∧
      ∃ k ∈ d.kernels, k.inputs = [⟨1⟩, ⟨2⟩] ∧ k.params.length = 3 := by
  have reachable : sharedConstant.Reachable := Reachable.empty.afterCalls _
  have free : ∀ v ∈ sharedConstant.inputs,
      sharedConstant.payload? v = none ∧ sharedConstant.producer? v = none := by decide
  have sorted : sharedConstant.topologicalOrder = .ok [⟨0⟩, ⟨1⟩] := by decide
  obtain ⟨⟨d, weights⟩, r, generated⟩ := Generation.ok_of_run'
    (show ((generate sharedConstant 64).run' .start).isSome = true by decide)
  obtain ⟨order, found, _, ids, _, tiles, kernels⟩ := generate_places reachable free generated
  cases sorted.symm.trans found
  obtain ⟨k, _, ⟨op, _, ho, _, inputs, _, placed⟩, _, same⟩ :=
    List.forall₂_cons_left_iff.1 kernels
  have operands : sharedConstant.operatorAt? ⟨0⟩ = some op → op.inputs = [⟨1⟩, ⟨2⟩] := by
    rintro ⟨⟩
    rfl
  rw [operands ho] at inputs
  refine ⟨reachable, free, d, weights, r, generated, ids.trans (by decide), tiles, k, ?_,
    inputs, ?_⟩
  · rw [same]
    exact List.mem_cons_self
  · rw [placed.count, inputs]
    rfl

end TensorGraph
