import TensorGraph.Proofs.Evaluation.Run
import TensorGraph.Proofs.Lowering.Generation
import TensorGraph.Proofs.Lowering.Layout
import TensorGraph.Proofs.Optimizer.Contract

/-!
# TensorGraph.Proofs.Lowering.Execution

The kernels of a descriptor compute what the graph means.

* `Device.load`, `Device.store`: spans of a buffer.
* `DeviceKernel.run`: one dispatch reads its operands from the weights and from the data buffer,
  and writes its result to the data buffer.
* `DeviceDescriptor.run`: the inputs are stored, then the kernels run one after the other.
* `Device.Represents`: the invariant of a run. Values computed so far lie in their spans.
* `generate_refines`: in the end, the spans of the outputs hold what `Graph.evaluate` gives.
-/

namespace TensorGraph

variable {α : Type}

namespace Device

/-- The cells of a span. `none` if they are not all there. -/
def load (cells : List α) (start length : Nat) : Option (Array α) :=
  if start + length ≤ cells.length then some ((cells.drop start).take length).toArray
  else none

/-- Replaces the cells from `start` on. `none` if they are not all there. -/
def store (cells : List α) (start : Nat) (values : Array α) : Option (List α) :=
  if start + values.size ≤ cells.length then
    some (cells.take start ++ (values.toList ++ cells.drop (start + values.size)))
  else none

/-- An operand of a kernel, which starts at `start` in the buffer that it lies in. -/
def read (g : Graph α) (weights cells : List α) (v : VariableId) (start : Nat) :
    Option (Array α) :=
  load (if g.isConstant v then weights else cells) start (g.elements v)

end Device

/-- The operator of a kernel: the one that computes its output. -/
def DeviceKernel.operator? (g : Graph α) (k : DeviceKernel) : Option (Operator α) := do
  g.operatorAt? (← g.producer? (← k.outputs.head?))

/-- One dispatch: what it makes of the data buffer. `none` if it leaves a buffer, or its operator
has no value. -/
def DeviceKernel.run [Scalar α] (g : Graph α) (weights cells : List α) (k : DeviceKernel) :
    Option (List α) := do
  let op ← k.operator? g
  let operands ← (k.inputs.zip k.params).mapM fun e => Device.read g weights cells e.1 e.2
  let result ← (g.evaluateOperator op operands).toOption
  Device.store cells (← k.params.getLast?) result

namespace DeviceDescriptor

/-- Stores the buffer of an input where the input is allocated. -/
def storeInput (d : DeviceDescriptor) (cells : List α) (v : VariableId) (x : Array α) :
    Option (List α) := do
  let a ← d.allocation.find? (·.id = v)
  Device.store cells a.offset x

/-- Stores one buffer per designated input, then runs the kernels in the order of the list. -/
def run [Scalar α] (d : DeviceDescriptor) (g : Graph α) (weights cells : List α)
    (inputs : List (Array α)) : Option (List α) := do
  let loaded ← (d.interface.inputs.zip inputs).foldlM (fun cells e => d.storeInput cells e.1 e.2)
    cells
  d.kernels.foldlM (DeviceKernel.run g weights) loaded

/-- What the span of a variable holds: its weight entry if it is constant, else its allocation. -/
def fetch (d : DeviceDescriptor) (g : Graph α) (weights cells : List α) (v : VariableId) :
    Option (Array α) :=
  if g.isConstant v then do
    let e ← d.interface.weights.find? (·.id = v)
    Device.load weights e.start (e.length / 4)
  else do
    let a ← d.allocation.find? (·.id = v)
    Device.load cells a.offset a.length

end DeviceDescriptor

namespace Device

section

variable {cells cells' : List α} {start : Nat} {values : Array α}

theorem store_eq_some (h : store cells start values = some cells') :
    start + values.size ≤ cells.length ∧
      cells' = cells.take start ++ (values.toList ++ cells.drop (start + values.size)) := by
  unfold store at h
  split at h
  · next inside => exact ⟨inside, (Option.some.inj h).symm⟩
  · cases h

theorem store_some (h : start + values.size ≤ cells.length) :
    ∃ cells', store cells start values = some cells' := ⟨_, if_pos h⟩

theorem store_length (h : store cells start values = some cells') :
    cells'.length = cells.length := by
  obtain ⟨inside, rfl⟩ := store_eq_some h
  simp only [List.length_append, List.length_take, List.length_drop, Array.length_toList]
  omega

theorem load_store_same (h : store cells start values = some cells') :
    load cells' start values.size = some values := by
  have length := store_length h
  obtain ⟨inside, rfl⟩ := store_eq_some h
  have front : (cells.take start).length = start := List.length_take_of_le (by omega)
  rw [load, if_pos (by omega)]
  simp only [front, List.drop_left', List.take_left', Array.length_toList, Array.toArray_toList]

theorem getElem?_store_other (h : store cells start values = some cells') {i : Nat}
    (apart : i < start ∨ start + values.size ≤ i) : cells'[i]? = cells[i]? := by
  obtain ⟨inside, rfl⟩ := store_eq_some h
  have front : (cells.take start).length = start := List.length_take_of_le (by omega)
  have middle : values.toList.length = values.size := Array.length_toList
  rcases apart with before | behind
  · rw [List.getElem?_append_left (by omega), List.getElem?_take_of_lt before]
  · rw [List.getElem?_append_right (by omega), List.getElem?_append_right (by omega),
      List.getElem?_drop, front, middle]
    congr 1
    omega

/-- A store leaves what lies before it, and what lies behind it. -/
theorem load_store_other (h : store cells start values = some cells') {t n : Nat}
    (apart : t + n ≤ start ∨ start + values.size ≤ t) : load cells' t n = load cells t n := by
  unfold load
  rw [store_length h]
  split
  · congr 2
    refine List.ext_getElem? fun i => ?_
    by_cases hi : i < n
    · rw [List.getElem?_take_of_lt hi, List.getElem?_take_of_lt hi, List.getElem?_drop,
        List.getElem?_drop]
      exact getElem?_store_other h (by omega)
    · rw [List.getElem?_eq_none (by rw [List.length_take]; omega),
        List.getElem?_eq_none (by rw [List.length_take]; omega)]
  · rfl

end

theorem mapM_zip_map {β γ δ : Type} {f : β × γ → Option δ} {start : β → γ} {more : List γ}
    (xs : List β) :
    (xs.zip (xs.map start ++ more)).mapM f = xs.mapM fun x => f (x, start x) := by
  induction xs with
  | nil => rfl
  | cons x xs ih =>
    rw [List.map_cons, List.cons_append, List.zip_cons_cons, List.mapM_cons, List.mapM_cons, ih]

open TensorGraph.Graph Layout WeightBuffer

/-- The data buffer holds every value in its span. -/
structure Represents (g : Graph α) (order : List OperatorId) (values : Valuation α)
    (cells : List α) : Prop where
  length : cells.length = ((dataIds g order).map g.elements).sum
  stored : ∀ {v x}, values.lookup v = some x → v ∈ dataIds g order ∧
    load cells (startIn g.elements (dataIds g order) v) (g.elements v) = some x

section

variable {g : Graph α} {order : List OperatorId} {values : Valuation α} {cells : List α}

/-- Spans are apart, so a store changes one value. -/
theorem Represents.store (rep : Represents g order values cells) {w : VariableId}
    (hw : w ∈ dataIds g order) {x : Array α} (size : x.size = g.elements w) :
    ∃ cells', store cells (startIn g.elements (dataIds g order) w) x = some cells' ∧
      Represents g order ((w, x) :: values) cells' := by
  have inside := startIn_add_le g.elements hw
  rw [← rep.length, ← size] at inside
  obtain ⟨cells', stored⟩ := store_some inside
  refine ⟨cells', stored, (store_length stored).trans rep.length, ?_⟩
  intro v y found
  by_cases e : v = w
  · subst e
    rw [List.lookup_cons_self] at found
    cases found
    exact ⟨hw, size ▸ load_store_same stored⟩
  · rw [List.lookup_cons, beq_eq_false_iff_ne.2 e] at found
    obtain ⟨hv, held⟩ := rep.stored found
    refine ⟨hv, ?_⟩
    rw [load_store_other stored (by rw [size]; exact startIn_apart hv hw e)]
    exact held

theorem storeInput_eq {d : DeviceDescriptor} (laid : d.allocation = allocate g order)
    {v : VariableId} (hv : v ∈ dataIds g order) (x : Array α) :
    d.storeInput cells v x = Device.store cells (startIn g.elements (dataIds g order) v) x := by
  rw [DeviceDescriptor.storeInput, laid, find?_allocate, if_pos hv]
  show Device.store cells (0 + _) x = _
  rw [Nat.zero_add]

/-- Inputs are stored one after the other, and a later one covers an earlier one. -/
theorem Represents.inputs (rep : Represents g order values cells) {d : DeviceDescriptor}
    (laid : d.allocation = allocate g order) {given : Valuation α}
    (fits : ∀ e ∈ given, e.1 ∈ dataIds g order ∧ e.2.size = g.elements e.1) :
    ∃ cells', given.foldlM (fun cells e => d.storeInput cells e.1 e.2) cells = some cells' ∧
      Represents g order (given.reverse ++ values) cells' := by
  induction given generalizing values cells with
  | nil => exact ⟨cells, rfl, rep⟩
  | cons e rest ih =>
    obtain ⟨hv, size⟩ := fits e List.mem_cons_self
    obtain ⟨cells₁, stored, rep₁⟩ := rep.store hv size
    obtain ⟨cells', run, rep'⟩ := ih rep₁ fun e he => fits e (List.mem_cons_of_mem _ he)
    refine ⟨cells', ?_, ?_⟩
    · rw [List.foldlM_cons, storeInput_eq laid hv, stored]
      exact run
    · rw [List.reverse_cons, List.append_assoc]
      exact rep'

/-- The entry of a constant holds its payload. -/
theorem load_constant (h : g.Linked) {v : VariableId} {x : Array α}
    (payload : g.payload? v = some x) (hv : v ∈ constantIds g order) :
    load (pack g order).data (startIn g.elements (constantIds g order) v) (g.elements v) =
      some x := by
  have lengths : ∀ u ∈ constantIds g order, (elementsOf g u).length = g.elements u :=
    fun u hu => elementsOf_length h (mem_fresh.1 hu).2.1
  have elements : elementsOf g v = x.toList := by rw [elementsOf, payload]; rfl
  have inside := startIn_add_le g.elements hv
  rw [pack_eq h, load, length_flatMap lengths, if_pos inside, segment_startIn lengths hv, elements]

/-- A kernel reads the value of an operand. -/
theorem Represents.read (rep : Represents g order values cells) (h : g.Linked)
    (addressed : checkAddressable g = .ok ⟨⟩) {v : VariableId} {x : Array α}
    (value : g.valueOf values v = .ok x)
    (listed : g.isConstant v = true → v ∈ constantIds g order) :
    Device.read g (pack g order).data cells v
      (word (startOf (pack g order) (allocate g order) v)) = some x := by
  rcases valueOf_ok value with payload | ⟨unset, found⟩
  · have constant : g.isConstant v = true := by rw [isConstant, payload]; rfl
    have hv := listed constant
    rw [Device.read, if_pos constant, startOf_constant h addressed hv]
    exact load_constant h payload hv
  · have varies : ¬g.isConstant v = true := by rw [isConstant, unset]; exact Bool.noConfusion
    obtain ⟨hv, held⟩ := rep.stored found
    rw [Device.read, if_neg varies, startOf_data h addressed hv]
    exact held

theorem mapM_some_of_ok {β γ ε : Type} {f : β → Except ε γ} {k : β → Option γ} {xs : List β}
    {ys : List γ} (run : xs.mapM f = .ok ys) (same : ∀ x ∈ xs, ∀ y, f x = .ok y → k x = some y) :
    xs.mapM k = some ys := by
  induction xs generalizing ys with
  | nil =>
    cases run
    rfl
  | cons x xs ih =>
    rw [List.mapM_cons] at run
    obtain ⟨y, hy, run⟩ := except_bind_ok_iff.1 run
    obtain ⟨zs, rest, done⟩ := except_bind_ok_iff.1 run
    cases done
    rw [List.mapM_cons, same x List.mem_cons_self y hy,
      ih rest fun z hz => same z (List.mem_cons_of_mem x hz)]
    rfl

theorem operator?_kernel (h : g.Linked) {o : OperatorId} {op : Operator α}
    (ho : g.operatorAt? o = some op) {w : VariableId} (outputs : op.outputs = [w])
    {k : DeviceKernel} (same : k.outputs = op.outputs) : k.operator? g = some op := by
  have produced : g.producer? w = some o :=
    (producer?_iff h).2 ((Outline.writes_iff ho).2 (outputs ▸ List.mem_cons_self))
  have first : k.outputs.head? = some w := by rw [same, outputs]; rfl
  rw [DeviceKernel.operator?, first]
  show (g.producer? w).bind g.operatorAt? = some op
  rw [produced]
  exact ho

variable [Scalar α] {rank : OperatorId → Nat}

theorem run_eq {weights : List α} {k : DeviceKernel} {op : Operator α}
    {operands : List (Array α)} {r : Array α} {start : Nat} (ho : k.operator? g = some op)
    (read : (k.inputs.zip k.params).mapM (fun e => Device.read g weights cells e.1 e.2) =
      some operands)
    (result : g.evaluateOperator op operands = .ok r) (last : k.params.getLast? = some start) :
    k.run g weights cells = Device.store cells start r := by
  rw [DeviceKernel.run, ho]
  simp only [Option.bind_eq_bind, Option.bind_some, read, result, last, Except.toOption]

/-- A kernel does to the data buffer what the evaluation of its operator does to the values. -/
theorem Represents.kernel (rep : Represents g order values cells) (h : g.Linked)
    (sound : g.outline.Sound rank) (addressed : checkAddressable g = .ok ⟨⟩) {o : OperatorId}
    (mem : o ∈ order) {op : Operator α} (ho : g.operatorAt? o = some op) {values' : Valuation α}
    (step : g.evaluateStep values o = .ok values') (s : KernelSpec α) :
    ∃ cells', (Device.kernel (pack g order) (allocate g order) op s).run g (pack g order).data
      cells = some cells' ∧ Represents g order values' cells' := by
  obtain ⟨w, outputs, _⟩ := sound.result ho
  obtain ⟨operands, r, found, result, rfl⟩ := (evaluateStep_ok_iff ho outputs).1 step
  have write : g.outline.Writes o w :=
    (Outline.writes_iff ho).2 (outputs ▸ List.mem_cons_self)
  have hw : w ∈ dataIds g order := by
    refine mem_dataIds (h.output_live write) ?_ (.inr ⟨o, mem, write⟩)
    rw [payload?_eq]
    exact sound.computed write
  let start (v : VariableId) : Nat := word (startOf (pack g order) (allocate g order) v)
  have params : (op.inputs ++ op.outputs).map start = op.inputs.map start ++ [start w] := by
    rw [outputs, List.map_append, List.map_singleton]
  have operandsRead : (op.inputs.zip ((op.inputs ++ op.outputs).map start)).mapM
      (fun e => Device.read g (pack g order).data cells e.1 e.2) = some operands := by
    rw [params, mapM_zip_map]
    refine mapM_some_of_ok found fun u hu x value => rep.read h addressed value fun constant => ?_
    exact mem_constantIds constant (.inl ⟨o, mem, op, ho, hu⟩)
  obtain ⟨cells', stored, rep'⟩ := rep.store hw (evaluateOperator_size result outputs)
  refine ⟨cells', ?_, rep'⟩
  have last : ((op.inputs ++ op.outputs).map start).getLast? = some (start w) := by
    rw [params, List.getLast?_append, List.getLast?_singleton]
    rfl
  have placed : start w = startIn g.elements (dataIds g order) w := startOf_data h addressed hw
  rw [run_eq (operator?_kernel h ho outputs rfl) operandsRead result last, placed]
  exact stored

theorem Represents.kernels (rep : Represents g order values cells) (h : g.Linked)
    (sound : g.outline.Sound rank) (addressed : checkAddressable g = .ok ⟨⟩)
    {os : List OperatorId} {lowered : Lowered α} (sub : os ⊆ order)
    (each : List.Forall₂ (fun o x => g.operatorAt? o = some x.1) os lowered)
    {values' : Valuation α} (run : os.foldlM g.evaluateStep values = .ok values') :
    ∃ cells', (lowered.map fun x => Device.kernel (pack g order) (allocate g order) x.1 x.2).foldlM
      (DeviceKernel.run g (pack g order).data) cells = some cells' ∧
        Represents g order values' cells' := by
  induction each generalizing values cells with
  | nil =>
    cases run
    exact ⟨cells, rfl, rep⟩
  | @cons o x os lowered ho _ ih =>
    obtain ⟨mem, sub⟩ := List.cons_subset.1 sub
    rw [List.foldlM_cons] at run
    obtain ⟨values₁, step, run⟩ := except_bind_ok_iff.1 run
    obtain ⟨cells₁, first, rep₁⟩ := rep.kernel h sound addressed mem ho step x.2
    obtain ⟨cells', others, rep'⟩ := ih rep₁ sub run
    refine ⟨cells', ?_, rep'⟩
    rw [List.map_cons, List.foldlM_cons, first]
    exact others

omit [Scalar α] in
theorem Represents.fetch (rep : Represents g order values cells) (h : g.Linked)
    {d : DeviceDescriptor} (laid : d.allocation = allocate g order)
    (packed : d.interface.weights = (pack g order).entries) {v : VariableId} {x : Array α}
    (value : g.valueOf values v = .ok x) (output : v ∈ g.outputs) :
    d.fetch g (pack g order).data cells v = some x := by
  rcases valueOf_ok value with payload | ⟨unset, found⟩
  · have constant : g.isConstant v = true := by rw [isConstant, payload]; rfl
    have hv : v ∈ constantIds g order := mem_constantIds constant (.inr output)
    have entry : (pack g order).entries.find? (·.id = v) =
        some (entryIn g 0 (constantIds g order) v) := (entry?_pack h).trans (if_pos hv)
    have start : (entryIn g 0 (constantIds g order) v).start =
        startIn g.elements (constantIds g order) v := by
      show 4 * (0 + _) / 4 = _
      omega
    have length : (entryIn g 0 (constantIds g order) v).length / 4 = g.elements v := by
      show 4 * _ / 4 = _
      omega
    rw [DeviceDescriptor.fetch, if_pos constant, packed, entry]
    show load _ (entryIn g 0 (constantIds g order) v).start _ = _
    rw [start, length]
    exact load_constant h payload hv
  · have varies : ¬g.isConstant v = true := by rw [isConstant, unset]; exact Bool.noConfusion
    obtain ⟨hv, held⟩ := rep.stored found
    rw [DeviceDescriptor.fetch, if_neg varies, laid, find?_allocate, if_pos hv]
    show load cells (0 + _) _ = _
    rw [Nat.zero_add]
    exact held

end

end Device

open Device

/-- Whatever lowers computes what the graph means: from any content of the data buffer, the
kernels leave each output of the graph in its span. -/
theorem Graph.generate_refines [Scalar α] {g : Graph α} (checked : g.Checked) {workgroupSize : Nat}
    {r r' : Generation} {d : DeviceDescriptor} {weights : WeightBuffer α}
    (generated : generate g workgroupSize r = .ok (d, weights) r') {inputs : List (Array α)}
    (fits : g.Fits inputs) {cells : List α} (size : cells.length = d.dataElements) :
    ∃ outputs cells', g.evaluate inputs = .ok outputs ∧
      d.run g weights.data cells inputs = some cells' ∧
        g.outputs.mapM (d.fetch g weights.data cells') = some outputs := by
  obtain ⟨linked, ⟨rank, sound⟩, _⟩ := checked.tidy
  obtain ⟨order, lowered, addressed, found, each, rfl, rfl⟩ := generate_ok generated
  obtain ⟨outputs, evaluated, _⟩ := evaluate_total linked sound fits
  obtain ⟨values₀, bound, rest⟩ := except_bind_ok_iff.1 evaluated
  obtain ⟨order', found', rest⟩ := except_bind_ok_iff.1 rest
  obtain ⟨values, run, read⟩ := except_bind_ok_iff.1 rest
  cases found.symm.trans found'
  cases (bindInputs_ok fits).symm.trans bound
  have blank : Represents g order [] cells :=
    ⟨size.trans (dataElements_eq g order), fun found => nomatch found⟩
  have given : ∀ e ∈ g.inputs.zip inputs, e.1 ∈ dataIds g order ∧ e.2.size = g.elements e.1 := by
    intro e he
    have hv : e.1 ∈ g.inputs := (List.of_mem_zip he).1
    refine ⟨mem_dataIds (linked.designated_live (.inl hv)) ?_ (.inl hv), zip_size fits e he⟩
    exact (checked.inputs_free e.1 hv).1
  obtain ⟨loaded, stored, rep⟩ := blank.inputs (d := descriptor g order (.pack g order) lowered)
    rfl given
  rw [List.append_nil] at rep
  obtain ⟨cells', dispatched, rep'⟩ := rep.kernels linked sound addressed (List.Subset.refl order)
    each run
  refine ⟨outputs, cells', evaluated, ?_, ?_⟩
  · exact Option.bind_eq_some_iff.2 ⟨loaded, stored, dispatched⟩
  · exact mapM_some_of_ok read fun v hv x value => rep'.fetch linked rfl rfl value hv

/-- The sum of a constant and an input that is designated twice. Both are outputs. -/
def Graph.sumWithConstant : Graph Binary32 :=
  afterCalls .empty
    [.addVariable "x" [2], .addConstant "c" [2] #[1, 2], .addVariable "y" [2],
      .addOperator (.elementwiseAdd none) [⟨0⟩, ⟨1⟩] [⟨2⟩], .designateInputs [⟨0⟩, ⟨0⟩],
      .designateOutputs [⟨2⟩, ⟨1⟩]]

theorem Graph.sumWithConstant_checked : sumWithConstant.Checked where
  reachable := Reachable.empty.afterCalls _
  valid := by decide
  inputs_free := by decide

theorem Graph.generate_refines_sumWithConstant : sumWithConstant.Checked ∧
    sumWithConstant.Fits [#[3, 4], #[5, 6]] ∧ ∃ d weights r outputs cells',
      generate sumWithConstant 64 .start = .ok (d, weights) r ∧
      sumWithConstant.evaluate [#[3, 4], #[5, 6]] = .ok outputs ∧
      d.run sumWithConstant weights.data (List.replicate d.dataElements 0) [#[3, 4], #[5, 6]] =
        some cells' ∧
      sumWithConstant.outputs.mapM (d.fetch sumWithConstant weights.data cells') =
        some outputs := by
  have fits : sumWithConstant.Fits [#[3, 4], #[5, 6]] := by
    show _ = _
    decide
  have lowers : ((generate sumWithConstant 64).run' .start).isSome = true := by decide
  cases generated : generate sumWithConstant 64 .start with
  | error e r =>
    have failed : (generate sumWithConstant 64).run' .start = none :=
      congrArg (fun result => match result with
        | .ok x _ => some x
        | .error _ _ => none) generated
    rw [failed] at lowers
    cases lowers
  | ok x r =>
    obtain ⟨outputs, cells', evaluated, run, fetched⟩ := generate_refines sumWithConstant_checked
      generated fits (List.length_replicate (a := (0 : Binary32)))
    exact ⟨sumWithConstant_checked, fits, x.1, x.2, r, outputs, cells', rfl, evaluated, run,
      fetched⟩

end TensorGraph
