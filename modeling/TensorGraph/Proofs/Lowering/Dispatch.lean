import TensorGraph.Proofs.Lowering.Literals
import TensorGraph.Proofs.Tensor.Window

/-!
# TensorGraph.Proofs.Lowering.Dispatch

How many threads a dispatch starts, and which elements they compute.

* `Shader.Index.exact`, `Shader.Index.inWords`: the value of an index as a natural number, and as
  the device computes it, in words of 32 bits.
* `DeviceKernel.Thread`: the threads of a dispatch. `Thread.rank` counts them, and `Thread.element`
  is what a kernel makes of this count.
* `Device.dispatch_rows_le_iff`: how many rows of threads it takes to cover the invocations.
* `DeviceKernel.unwrapped_iff`, `DeviceKernel.apart_iff`: words hold the ranks, and threads have
  elements of their own, exactly as long as there are no more than `2 ^ 32` threads.
* `Graph.generate_dispatches`: for which numbers of invocations the dispatches of a graph keep the
  limits of the device.
-/

namespace TensorGraph

open Device Generation TensorGraph.Graph

namespace Shader.Index

/-- Value of an index as a natural number. -/
def exact (names : String → Nat) : Index → Nat
  | .literal n => n
  | .named x => names x
  | .add a b => a.exact names + b.exact names
  | .sub a b => a.exact names - b.exact names
  | .mul a b => a.exact names * b.exact names
  | .div a b => a.exact names / b.exact names
  | .mod a b => a.exact names % b.exact names

/-- Value of an index on the device, where every operation is one on words. -/
def inWords (names : String → UInt32) : Index → UInt32
  | .literal n => .ofNat n
  | .named x => names x
  | .add a b => a.inWords names + b.inWords names
  | .sub a b => a.inWords names - b.inWords names
  | .mul a b => a.inWords names * b.inWords names
  | .div a b => a.inWords names / b.inWords names
  | .mod a b => a.inWords names % b.inWords names

end Shader.Index

/-! ## Threads -/

/-- The number of an invocation, as a kernel computes it in its first line. -/
def KernelSpec.number {α : Type} (s : KernelSpec α) : Shader.Index :=
  .named "gid.x" + .named "gid.y" * .named "nwg.x" * .literal s.workgroupSize

/-- The threads of one row of a dispatch. -/
def DeviceKernel.rowSize (k : DeviceKernel) : Nat := k.workgroups.1 * k.workgroupSize

/-- All threads of a dispatch. -/
def DeviceKernel.threads (k : DeviceKernel) : Nat := k.rowSize * k.workgroups.2.1

/-- A thread of a dispatch, by its place in the grid. Workgroups extend along the first dimension
only. -/
structure DeviceKernel.Thread (k : DeviceKernel) where
  x : Fin k.rowSize
  y : Fin k.workgroups.2.1
  z : Fin k.workgroups.2.2

namespace DeviceKernel

variable {k : DeviceKernel}

/-- What a thread reads under the names that its number is computed from. -/
def Thread.names (t : k.Thread) (name : String) : Nat :=
  if name = "gid.x" then t.x
  else if name = "gid.y" then t.y
  else if name = "nwg.x" then k.workgroups.1
  else 0

/-- The number of a thread among those of its dispatch. -/
def Thread.rank {α : Type} (t : k.Thread) (s : KernelSpec α) : Nat := s.number.exact t.names

/-- The element that a thread computes, if there is one of this number. -/
def Thread.element {α : Type} (t : k.Thread) (s : KernelSpec α) : Nat :=
  (s.number.inWords fun name => .ofNat (t.names name)).toNat

section

variable {α : Type} {s : KernelSpec α} (size : k.workgroupSize = s.workgroupSize)

include size

theorem Thread.rank_eq (t : k.Thread) : t.rank s = t.x + t.y * k.rowSize := by
  have sum : t.rank s = t.x + t.y * k.workgroups.1 * s.workgroupSize := rfl
  rw [sum, ← size, Nat.mul_assoc]
  rfl

theorem Thread.element_eq (t : k.Thread) : t.element s = t.rank s % 2 ^ 32 := by
  have sum : t.element s = ((UInt32.ofNat t.x) + (UInt32.ofNat t.y) *
      (UInt32.ofNat k.workgroups.1) * (UInt32.ofNat s.workgroupSize)).toNat := rfl
  rw [sum, ← size, t.rank_eq size]
  show _ = ((t.x : Nat) + t.y * (k.workgroups.1 * k.workgroupSize)) % 2 ^ 32
  rw [← Nat.mul_assoc]
  simp [UInt32.toNat_add, UInt32.toNat_mul, Nat.add_mod, Nat.mul_mod]

theorem Thread.rank_lt (t : k.Thread) : t.rank s < k.threads := by
  have column := t.x.isLt
  have row : k.rowSize * (t.y + 1) ≤ k.rowSize * k.workgroups.2.1 :=
    Nat.mul_le_mul_left _ t.y.isLt
  rw [Nat.mul_add_one, Nat.mul_comm] at row
  rw [t.rank_eq size, threads]
  omega

/-- Every number below that of the threads is the rank of one of them. -/
theorem exists_rank_eq (layers : k.workgroups.2.2 = 1) {n : Nat} (h : n < k.threads) :
    ∃ t : k.Thread, t.rank s = n := by
  have some_column : 0 < k.rowSize := Nat.pos_of_ne_zero fun e => by
    rw [threads, e, Nat.zero_mul] at h
    exact Nat.not_lt_zero _ h
  refine ⟨⟨⟨n % k.rowSize, Nat.mod_lt _ some_column⟩,
    ⟨n / k.rowSize, Nat.div_lt_of_lt_mul h⟩, ⟨0, by omega⟩⟩, ?_⟩
  rw [Thread.rank_eq size]
  exact Nat.mod_add_div' n k.rowSize

/-- Threads of different places have different ranks. -/
theorem Thread.rank_injective (layers : k.workgroups.2.2 = 1) {t t' : k.Thread}
    (same : t.rank s = t'.rank s) : t = t' := by
  obtain ⟨x, y, z⟩ := t
  obtain ⟨x', y', z'⟩ := t'
  rw [rank_eq size, rank_eq size] at same
  dsimp only at same
  have some_column : 0 < k.rowSize := Nat.zero_lt_of_lt x.isLt
  have columns : (x : Nat) = x' := by
    have := congrArg (· % k.rowSize) same
    simpa only [Nat.add_mul_mod_self_right, Nat.mod_eq_of_lt x.isLt,
      Nat.mod_eq_of_lt x'.isLt] using this
  have rows : (y : Nat) = y' := by
    have := congrArg (· / k.rowSize) same
    simpa only [Nat.add_mul_div_right _ _ some_column, Nat.div_eq_of_lt x.isLt,
      Nat.div_eq_of_lt x'.isLt, Nat.zero_add] using this
  have depths : (z : Nat) = z' := by
    have := z.isLt
    have := z'.isLt
    omega
  rw [Fin.ext columns, Fin.ext rows, Fin.ext depths]

/-- Words hold the ranks of all threads as long as there are no more threads than words. -/
theorem unwrapped_iff (layers : k.workgroups.2.2 = 1) :
    (∀ t : k.Thread, t.element s = t.rank s) ↔ k.threads ≤ 2 ^ 32 := by
  constructor
  · intro unwrapped
    by_contra many
    obtain ⟨t, rank⟩ := exists_rank_eq size layers (Nat.lt_of_not_le many)
    have kept := unwrapped t
    rw [t.element_eq size, rank] at kept
    omega
  · intro few t
    rw [t.element_eq size]
    exact Nat.mod_eq_of_lt (Nat.lt_of_lt_of_le (t.rank_lt size) few)

/-- No two threads compute the same element as long as there are no more threads than words. Past
that the first element is computed twice. -/
theorem apart_iff (layers : k.workgroups.2.2 = 1) (some_element : 0 < s.invocations) :
    (∀ t t' : k.Thread, t.element s = t'.element s → t.element s < s.invocations → t = t') ↔
      k.threads ≤ 2 ^ 32 := by
  constructor
  · intro apart
    by_contra many
    obtain ⟨t, rank⟩ := exists_rank_eq size layers (Nat.lt_of_not_le many)
    obtain ⟨t', rank'⟩ := exists_rank_eq size layers (n := 0) (by omega)
    have element := t.element_eq size
    have element' := t'.element_eq size
    rw [rank] at element
    rw [rank'] at element'
    have same := apart t t' (by omega) (by omega)
    rw [same, rank'] at rank
    omega
  · intro few t t' same _
    have unwrapped := (unwrapped_iff size layers).2 few
    rw [unwrapped t, unwrapped t'] at same
    exact Thread.rank_injective size layers same

end

end DeviceKernel

/-! ## Rows -/

namespace Device

/-- How many threads a full row has. -/
def rowThreads (workgroupSize : Nat) : Nat := workgroupLimit * workgroupSize

variable {n workgroupSize : Nat} (some_size : 1 ≤ workgroupSize)

theorem dispatch_columns (n workgroupSize : Nat) : 1 ≤ (dispatch n workgroupSize).1 ∧
    (dispatch n workgroupSize).1 ≤ workgroupLimit := by
  unfold dispatch
  extract_lets groups
  have some_group : 1 ≤ groups := Nat.le_max_left _ _
  split
  · next one_row => exact ⟨some_group, one_row⟩
  · exact ⟨show 1 ≤ workgroupLimit by decide, Nat.le_refl _⟩

theorem dispatch_layers (n workgroupSize : Nat) : (dispatch n workgroupSize).2.2 = 1 := by
  unfold dispatch
  extract_lets groups
  split <;> rfl

/-- How many workgroups there are at least: as many as cover the invocations, or one. -/
def groups (n workgroupSize : Nat) : Nat := max 1 (ceilDiv n workgroupSize)

/-- Numbers of workgroups along the three dimensions, which no word cuts off. -/
def layout (n workgroupSize : Nat) : Nat × Nat × Nat :=
  (min (groups n workgroupSize) workgroupLimit, ceilDiv (groups n workgroupSize) workgroupLimit, 1)

include some_size

theorem groups_le_iff {l : Nat} (some_group : 1 ≤ l) :
    groups n workgroupSize ≤ l ↔ n ≤ l * workgroupSize := by
  rw [groups, Nat.max_le, ceilDiv_le_iff some_size]
  exact and_iff_right some_group

/-- A dispatch is that of the exact numbers. -/
theorem dispatch_eq_layout (addressed : n < 2 ^ 32) :
    dispatch n workgroupSize = layout n workgroupSize := by
  have some_group : 1 ≤ groups n workgroupSize := Nat.le_max_left _ _
  unfold dispatch layout
  rw [Nat.max_eq_right some_size]
  change (if groups n workgroupSize ≤ workgroupLimit then _ else (_, word (ceilDiv
    (groups n workgroupSize) workgroupLimit), 1)) = _
  split
  · next one_row =>
    have row : ceilDiv (groups n workgroupSize) workgroupLimit = 1 :=
      Nat.le_antisymm ((ceilDiv_le_iff (by decide)).2 (by rwa [Nat.one_mul]))
        (ceilDiv_pos some_group (by decide))
    rw [row, Nat.min_eq_left one_row]
    rfl
  · next many =>
    have few_groups : groups n workgroupSize ≤ max 1 n := by
      refine (groups_le_iff some_size (Nat.le_max_left _ _)).2 ?_
      exact Nat.le_trans (Nat.le_max_right 1 n) (Nat.le_mul_of_pos_right _ some_size)
    have rows : ceilDiv (groups n workgroupSize) workgroupLimit ≤ groups n workgroupSize :=
      (ceilDiv_le_iff (by decide)).2 (Nat.le_mul_of_pos_right _ (by decide))
    have kept : word (ceilDiv (groups n workgroupSize) workgroupLimit) =
        ceilDiv (groups n workgroupSize) workgroupLimit :=
      Nat.mod_eq_of_lt (Nat.lt_of_le_of_lt (Nat.le_trans rows few_groups) (by simp; omega))
    rw [kept, Nat.min_eq_right (Nat.le_of_not_le many)]

/-- The rows of a dispatch are as many as it takes to cover the invocations. -/
theorem dispatch_rows_le_iff (addressed : n < 2 ^ 32) {m : Nat} (some_row : 1 ≤ m) :
    (dispatch n workgroupSize).2.1 ≤ m ↔ n ≤ m * rowThreads workgroupSize := by
  rw [dispatch_eq_layout some_size addressed, layout, ceilDiv_le_iff (by decide),
    groups_le_iff some_size (Nat.mul_pos some_row (by decide)), Nat.mul_assoc]
  rfl

omit some_size in
/-- A dispatch of several rows has full ones. -/
theorem dispatch_full (several : 1 < (dispatch n workgroupSize).2.1) :
    (dispatch n workgroupSize).1 = workgroupLimit := by
  unfold dispatch at several ⊢
  extract_lets at several ⊢
  split
  · next one_row =>
    rw [if_pos one_row] at several
    exact absurd several (Nat.lt_irrefl 1)
  · rfl

/-- There are no more threads than words as long as the invocations fit as many full rows as words
do. -/
theorem dispatch_threads_le_iff (few : workgroupSize ≤ maxWorkgroupSize) (addressed : n < 2 ^ 32) :
    (dispatch n workgroupSize).1 * workgroupSize * (dispatch n workgroupSize).2.1 ≤ 2 ^ 32 ↔
      n ≤ 2 ^ 32 / rowThreads workgroupSize * rowThreads workgroupSize := by
  have some_thread : 0 < rowThreads workgroupSize := Nat.mul_pos (by decide) some_size
  have row : rowThreads workgroupSize ≤ 2 ^ 32 :=
    Nat.le_trans (Nat.mul_le_mul_left _ few) (by decide)
  have some_row : 1 ≤ 2 ^ 32 / rowThreads workgroupSize := (Nat.one_le_div_iff some_thread).2 row
  rw [← dispatch_rows_le_iff some_size addressed some_row]
  by_cases several : 1 < (dispatch n workgroupSize).2.1
  · rw [dispatch_full several, Nat.le_div_iff_mul_le some_thread, Nat.mul_comm _ (rowThreads _)]
    rfl
  · have one_row : (dispatch n workgroupSize).2.1 ≤ 1 := Nat.le_of_not_lt several
    refine iff_of_true ?_ (Nat.le_trans one_row some_row)
    calc (dispatch n workgroupSize).1 * workgroupSize * (dispatch n workgroupSize).2.1
        ≤ workgroupLimit * workgroupSize * 1 :=
          Nat.mul_le_mul (Nat.mul_le_mul_right _ (dispatch_columns n workgroupSize).2) one_row
      _ ≤ 2 ^ 32 := by rw [Nat.mul_one]; exact row

end Device

/-! ## The dispatches of a graph -/

/-- How a dispatch stands to the limits of the device: it has full columns and one layer, and
whether it keeps to the rows and to the words of the device is told by the number of invocations. As
long as it keeps to the words, no number of a thread wraps and no element is computed twice. -/
structure DeviceKernel.Spreads {α : Type} (k : DeviceKernel) (s : KernelSpec α) : Prop where
  columns : 1 ≤ k.workgroups.1 ∧ k.workgroups.1 ≤ workgroupLimit
  layers : k.workgroups.2.2 = 1
  rows_iff : k.workgroups.2.1 ≤ workgroupLimit ↔
    s.invocations ≤ workgroupLimit * rowThreads k.workgroupSize
  threads_iff : k.threads ≤ 2 ^ 32 ↔
    s.invocations ≤ 2 ^ 32 / rowThreads k.workgroupSize * rowThreads k.workgroupSize
  unwrapped_iff : (∀ t : k.Thread, t.element s = t.rank s) ↔ k.threads ≤ 2 ^ 32
  apart_iff : (∀ t t' : k.Thread, t.element s = t'.element s → t.element s < s.invocations →
    t = t') ↔ k.threads ≤ 2 ^ 32

namespace Device

theorem output_size_pos {g : Graph Binary32} (positive : ∀ v, 0 ∉ g.shape v)
    (outputs : List VariableId) (axis : Nat) :
    let output := match outputs.head? with
      | some v => g.shape v
      | none => []
    0 < output.size ∧ 0 < output.size / output.getD axis 1 := by
  intro output
  have elements : 0 ∉ output := by
    show 0 ∉ (match outputs.head? with
      | some v => g.shape v
      | none => [])
    split
    · exact positive _
    · exact List.not_mem_nil
  have size := Kernel.size_pos elements
  refine ⟨size, ?_⟩
  by_cases inside : axis < output.length
  · have dim : output.getD axis 1 = output[axis] := List.getD_eq_getElem _ _ inside
    have le := Shape.getD_le elements axis
    rw [List.getD_eq_getElem _ _ inside] at le
    rw [dim]
    exact Nat.div_pos le (Nat.pos_of_ne_zero fun e => elements (e ▸ List.getElem_mem inside))
  · rw [List.getD_eq_default _ _ (Nat.le_of_not_lt inside), Nat.div_one]
    exact size

theorem ofOperator_invocations_pos {g : Graph Binary32} (positive : ∀ v, 0 ∉ g.shape v)
    {op : Operator Binary32} {workgroupSize : Nat} {s : KernelSpec Binary32}
    (planned : KernelSpec.ofOperator g op workgroupSize = .ok s) : 0 < s.invocations := by
  obtain ⟨id, kind, inputs, outputs⟩ := op
  cases kind with
  | softmax axis =>
    cases planned
    exact (output_size_pos positive outputs axis).2
  | responseNormalization => cases planned
  | convolution | pooling | linear | activation | batchNormalization | reshape | elementwiseAdd
      | scalarAffine | axiswiseAffine =>
    cases planned
    exact (output_size_pos positive outputs 0).1

/-- The dispatch of a specification that the device can count. -/
theorem kernel_spreads {weights : WeightBuffer Binary32} {spans : List Allocation}
    {op : Operator Binary32} {s : KernelSpec Binary32} (some_size : 1 ≤ s.workgroupSize)
    (few : s.workgroupSize ≤ maxWorkgroupSize) (some_element : 0 < s.invocations)
    (addressed : s.invocations < 2 ^ 32) : (kernel weights spans op s).Spreads s where
  columns := dispatch_columns _ _
  layers := dispatch_layers _ _
  rows_iff := dispatch_rows_le_iff some_size addressed (by decide)
  threads_iff := dispatch_threads_le_iff some_size few addressed
  unwrapped_iff := DeviceKernel.unwrapped_iff rfl (dispatch_layers _ _)
  apart_iff := DeviceKernel.apart_iff rfl (dispatch_layers _ _) some_element

end Device

/-- Every dispatch of a graph that is lowered keeps to the columns of the device. It keeps to its
rows as long as the invocations fill no more full rows than there may be, and its threads have
elements of their own as long as the invocations fill no more full rows than words can count. -/
theorem Graph.generate_dispatches {g : Graph Binary32} (reachable : g.Reachable)
    {workgroupSize : Nat} (some_size : 1 ≤ workgroupSize) (few : workgroupSize ≤ maxWorkgroupSize)
    {r r' : Generation} {d : DeviceDescriptor} {weights : WeightBuffer Binary32}
    (generated : Device.generate g workgroupSize r = .ok (d, weights) r') :
    ∃ order, g.topologicalOrder = .ok order ∧ List.Forall₂ (fun o k => ∃ op s,
      g.operatorAt? o = some op ∧ KernelSpec.ofOperator g op workgroupSize = .ok s ∧
      k.workgroupSize = workgroupSize ∧ k.workgroups = dispatch s.invocations workgroupSize ∧
      0 < s.invocations ∧ s.invocations < 2 ^ 32 ∧ k.Spreads s) order d.kernels := by
  obtain ⟨order, lowered, ⟨valid, addressed, sorted⟩, each, made⟩ :=
    Device.generate_ok_iff.1 ⟨r', generated⟩
  cases made
  have shapes := shape_addressable reachable.linked valid addressed
  refine ⟨order, sorted, List.forall₂_map_right_iff.2 (each.imp ?_)⟩
  rintro o ⟨op, s⟩ ⟨op', ho, _, lowers⟩
  obtain ⟨rfl, planned⟩ := lowerOperator_ok_iff.1 lowers
  have specifies := ofOperator_specifies planned
  have size := specifies.workgroupSize
  have able := specifies.addressable shapes (Nat.lt_of_le_of_lt few (by decide))
  have some_element := ofOperator_invocations_pos (fun v => (shapes v).positive) planned
  refine ⟨op, s, ho, planned, size, congrArg (dispatch s.invocations) size, some_element,
    able.invocations, ?_⟩
  exact kernel_spreads (size ▸ some_size) (size ▸ few) some_element able.invocations

/-- The workgroups of the kernels that are made for a trace. -/
def Trace.workgroups (t : Trace) (workgroupSize : Nat) : List (Nat × Nat × Nat) :=
  match t.toGraph with
  | .error _ => []
  | .ok g =>
    match Device.generate g workgroupSize .start with
    | .error _ _ => []
    | .ok (d, _) _ => d.kernels.map DeviceKernel.workgroups

theorem Trace.generate_of_workgroups {t : Trace} {n : Nat} {grid : Nat × Nat × Nat}
    (h : t.workgroups n = [grid]) : ∃ g d weights r, t.toGraph = .ok g ∧
      Device.generate g n .start = .ok (d, weights) r ∧
      ∃ k, d.kernels = [k] ∧ k.workgroups = grid := by
  unfold workgroups at h
  split at h
  · cases h
  · next g converted =>
    split at h
    · cases h
    · next d weights r generated =>
      exact ⟨g, d, weights, r, converted, generated, List.map_eq_singleton_iff.1 h⟩

/-- Averages of one pixel and the margin around it. They are nearly as many as words can count. -/
def Trace.wideMargins : Trace :=
  Trace.empty.addVariable "x" [1, 1, 1, 1] |>.addVariable "y" [1, 1, 3, 1431655763]
    |>.addNode "AveragePooling2D" ["x"] ["y"]
      (.object [("kh", .nat 1), ("ph", .nat 1), ("pw", .nat 715827881)])
    |>.designate ["x"] ["y"]

/-- With one thread to a workgroup there are too many rows for a device, and with the 64 that are
the default there are more threads than words can count. -/
theorem Trace.wideMargins_exceeds : ∃ g d d' weights weights' r r',
    wideMargins.toGraph = .ok g ∧ Device.generate g 1 .start = .ok (d, weights) r ∧
      (∃ k ∈ d.kernels, workgroupLimit < k.workgroups.2.1) ∧
      Device.generate g 64 .start = .ok (d', weights') r' ∧
      ∃ k ∈ d'.kernels, 2 ^ 32 < k.workgroups.1 * k.workgroups.2.1 * 64 := by
  obtain ⟨g, d, weights, r, converted, generated, k, only, grid⟩ :=
    generate_of_workgroups (show wideMargins.workgroups 1 = [(65535, 65537, 1)] by decide)
  obtain ⟨g', d', weights', r', converted', generated', k', only', grid'⟩ :=
    generate_of_workgroups (show wideMargins.workgroups 64 = [(65535, 1025, 1)] by decide)
  cases converted.symm.trans converted'
  refine ⟨g, d, d', weights, weights', r, r', converted, generated, ⟨k, ?_, ?_⟩, generated',
    k', ?_, ?_⟩
  · rw [only]
    exact List.mem_singleton_self k
  · rw [grid]
    decide
  · rw [only']
    exact List.mem_singleton_self k'
  · rw [grid']
    decide

/-- So two threads of the latter dispatch compute the same element. -/
theorem Graph.generate_dispatches_wideMargins : ∃ g d weights r op k,
    Trace.wideMargins.toGraph = .ok g ∧ g.Reachable ∧ 1 ≤ 64 ∧ 64 ≤ maxWorkgroupSize ∧
      Device.generate g 64 .start = .ok (d, weights) r ∧ op ∈ g.liveOperators ∧ k ∈ d.kernels ∧
      ∃ s, KernelSpec.ofOperator g op 64 = .ok s ∧ ∃ t t' : k.Thread, t ≠ t' ∧
        t.element s = t'.element s ∧ t.element s < s.invocations := by
  obtain ⟨g, d, weights, r, converted, generated, k, only, grid⟩ := Trace.generate_of_workgroups
    (show Trace.wideMargins.workgroups 64 = [(65535, 1025, 1)] by decide)
  have reachable : g.Reachable := (Conversion.toGraph_checked converted).reachable
  obtain ⟨order, _, kernels⟩ :=
    generate_dispatches reachable (by decide) (by decide) generated
  rw [only] at kernels
  obtain ⟨o, _, ⟨op, s, ho, planned, size, _, _, _, spreads⟩, _, _⟩ :=
    List.forall₂_cons_right_iff.1 kernels
  have many : ¬k.threads ≤ 2 ^ 32 := by
    rw [DeviceKernel.threads, DeviceKernel.rowSize, grid, size]
    decide
  have shared := (not_congr spreads.apart_iff).2 many
  push Not at shared
  obtain ⟨t, t', same, inside, ne⟩ := shared
  have live := (mem_liveOperators reachable.linked).2 (reachable.linked.operator_id ho ▸ ho)
  exact ⟨g, d, weights, r, op, k, converted, reachable, by decide, by decide, generated, live,
    only ▸ List.mem_singleton_self k, s, planned, t, t', ne, same, inside⟩

end TensorGraph
