import Mathlib.Data.Set.Function
import Mathlib.Order.Bounds.Defs
import TensorGraph.Proofs.Lowering.Dispatch
import TensorGraph.Proofs.Shader.Entry

/-!
# TensorGraph.Proofs.Lowering.Coverage

Which thread of a dispatch does what.

* `Thread.Computes`, `Thread.Returns`: threads that go on to the body of their kernel, and threads
  that end before it. `Thread.computes`, `Thread.returns` say which do, by their numbers.
* `Device.dispatch_threads`, `Device.dispatch_least`: the threads are enough, and with a row less
  they would not be.
* `Device.dispatch_covers`: the numbers of the threads are those below their count, each once, and
  every invocation is that of one thread.
-/

namespace TensorGraph

open Device Shader

variable {α : Type} [Scalar α]

namespace DeviceKernel

variable {k : DeviceKernel}

/-! ## Threads -/

/-- What a thread starts from: its place in the grid, and how many workgroups a row has. -/
def Thread.scope (t : k.Thread) : Scope := fun name =>
  if name ∈ ["gid.x", "gid.y", "nwg.x"] then some (t.names name) else none

/-- A thread that is number `i`, and does what the body of its kernel does for this number. -/
def Thread.Computes (t : k.Thread) (s : KernelSpec α) (i : Nat) : Prop :=
  t.rank s = i ∧ ∀ params, ∃ σ, s.Entered params i σ ∧
    unroll params t.scope s.code = unroll params σ s.body

/-- A thread that stores nothing. -/
def Thread.Returns (t : k.Thread) (s : KernelSpec α) : Prop :=
  ∀ params, unroll params t.scope s.code = some ([], .returned)

section

variable {s : KernelSpec α} (t : k.Thread)

omit [Scalar α] in
theorem Thread.launched : s.Launched t.scope (t.rank s) :=
  ⟨t.x, t.y, k.workgroups.1, rfl, rfl, rfl, rfl⟩

theorem Thread.computes (inside : t.rank s < s.invocations) : t.Computes s (t.rank s) := by
  refine ⟨rfl, fun params => ?_⟩
  obtain ⟨σ, entered, run⟩ := KernelSpec.unroll_preamble t.launched inside
  exact ⟨σ, entered, run s.body⟩

theorem Thread.returns (surplus : s.invocations ≤ t.rank s) : t.Returns s :=
  fun _ => KernelSpec.unroll_surplus t.launched surplus

end

/-! ## Dispatches -/

/-- How a dispatch covers the invocations of a specification. -/
structure Covers (k : DeviceKernel) (s : KernelSpec α) : Prop where
  /-- No number of workgroups is cut off by a word. -/
  counted : k.workgroups = layout s.invocations s.workgroupSize
  columns : 1 ≤ k.workgroups.1 ∧ k.workgroups.1 ≤ workgroupLimit
  layers : k.workgroups.2.2 = 1
  /-- Threads are numbered row by row. -/
  rank_eq : ∀ t : k.Thread, t.rank s = t.x + t.y * k.workgroups.1 * s.workgroupSize
  numbered : Set.BijOn (fun t : k.Thread => t.rank s) Set.univ
    (Set.Iio (k.workgroups.1 * k.workgroups.2.1 * s.workgroupSize))
  once : ∀ i < s.invocations, ∃! t : k.Thread, t.Computes s i
  surplus : ∀ t : k.Thread, (∀ i < s.invocations, ¬t.Computes s i) →
    s.invocations ≤ t.rank s ∧ t.Returns s
  /-- The rows are as few as it takes. -/
  rows : IsLeast {m | 1 ≤ m ∧ s.invocations ≤ k.workgroups.1 * m * s.workgroupSize}
    k.workgroups.2.1

end DeviceKernel

namespace Device

section

variable {n workgroupSize : Nat} (some_size : 1 ≤ workgroupSize) (addressed : n < 2 ^ 32)

include some_size addressed

theorem dispatch_some_row : 1 ≤ (dispatch n workgroupSize).2.1 := by
  rw [dispatch_eq_layout some_size addressed]
  exact ceilDiv_pos (Nat.le_max_left _ _) (by decide)

/-- There are enough threads for the invocations. -/
theorem dispatch_threads :
    n ≤ (dispatch n workgroupSize).1 * (dispatch n workgroupSize).2.1 * workgroupSize := by
  have some_row := dispatch_some_row some_size addressed
  have some_group : 1 ≤ groups n workgroupSize := Nat.le_max_left _ _
  rw [dispatch_eq_layout some_size addressed] at some_row ⊢
  have enough : groups n workgroupSize ≤
      (layout n workgroupSize).1 * (layout n workgroupSize).2.1 := by
    -- One row takes all workgroups, or every row is full.
    rcases Nat.le_total (groups n workgroupSize) workgroupLimit with one_row | many
    · have columns : (layout n workgroupSize).1 = groups n workgroupSize :=
        Nat.min_eq_left one_row
      rw [columns]
      exact Nat.le_mul_of_pos_right _ some_row
    · have columns : (layout n workgroupSize).1 = workgroupLimit := Nat.min_eq_right many
      rw [columns, Nat.mul_comm]
      exact (ceilDiv_le_iff (by decide)).1 (Nat.le_refl _)
  exact (groups_le_iff some_size (Nat.le_trans some_group enough)).1 enough

/-- Rows of this length that cover the invocations are not fewer. -/
theorem dispatch_least {m : Nat} (some_row : 1 ≤ m)
    (covered : n ≤ (dispatch n workgroupSize).1 * m * workgroupSize) :
    (dispatch n workgroupSize).2.1 ≤ m := by
  refine (dispatch_rows_le_iff some_size addressed some_row).2 ?_
  calc n ≤ (dispatch n workgroupSize).1 * m * workgroupSize := covered
    _ ≤ workgroupLimit * m * workgroupSize :=
      Nat.mul_le_mul_right _ (Nat.mul_le_mul_right _ (dispatch_columns n workgroupSize).2)
    _ = m * rowThreads workgroupSize := by rw [Nat.mul_comm workgroupLimit, Nat.mul_assoc]; rfl

end

/-- The threads of a dispatch are numbered without gaps and without repetition. Each invocation is
that of one thread, and the threads that are left over return. One row less would not do. An entry
point for these threads prints the code that they run, whatever its name. -/
theorem dispatch_covers (weights : WeightBuffer α) (spans : List Allocation) (op : Operator α)
    (s : KernelSpec α) (some_size : 1 ≤ s.workgroupSize) (addressed : s.invocations < 2 ^ 32) :
    (kernel weights spans op s).Covers s ∧
      ∀ name, s.source name = s.header name ++ Statement.bodyLines 1 s.code ++ "\x7d\n" := by
  refine ⟨?_, s.source_eq⟩
  have layers := dispatch_layers s.invocations s.workgroupSize
  have enough := dispatch_threads some_size addressed
  generalize made : kernel weights spans op s = k
  have size : k.workgroupSize = s.workgroupSize := made ▸ rfl
  have grid : k.workgroups = dispatch s.invocations s.workgroupSize := made ▸ rfl
  rw [← grid] at layers enough
  have count : k.threads = k.workgroups.1 * k.workgroups.2.1 * s.workgroupSize := by
    rw [DeviceKernel.threads, DeviceKernel.rowSize, size, Nat.mul_right_comm]
  exact {
    counted := grid.trans (dispatch_eq_layout some_size addressed)
    columns := grid ▸ dispatch_columns _ _
    layers := layers
    rank_eq := fun _ => rfl
    numbered := by
      refine ⟨fun t _ => ?_, fun t _ t' _ same => ?_, fun i below => ?_⟩
      · exact Set.mem_Iio.2 (count ▸ t.rank_lt size)
      · exact DeviceKernel.Thread.rank_injective size layers same
      · obtain ⟨t, rank⟩ := DeviceKernel.exists_rank_eq size layers (count ▸ below)
        exact ⟨t, trivial, rank⟩
    once := by
      intro i inside
      obtain ⟨t, rfl⟩ := DeviceKernel.exists_rank_eq size layers
        (Nat.lt_of_lt_of_le inside (count ▸ enough))
      exact ⟨t, t.computes inside, fun t' computes =>
        DeviceKernel.Thread.rank_injective size layers computes.1⟩
    surplus := by
      intro t idle
      have surplus : s.invocations ≤ t.rank s :=
        Nat.le_of_not_lt fun inside => idle _ inside (t.computes inside)
      exact ⟨surplus, t.returns surplus⟩
    rows := by
      refine ⟨⟨grid ▸ dispatch_some_row some_size addressed, enough⟩, ?_⟩
      rintro m ⟨some_row, covered⟩
      rw [grid] at covered ⊢
      exact dispatch_least some_size addressed some_row covered }

/-- One invocation more than a row has threads takes a second row. -/
theorem dispatch_covers_secondRow : ∃ (s : KernelSpec Binary32) (op : Operator Binary32),
    1 ≤ s.workgroupSize ∧ s.invocations < 2 ^ 32 ∧
      s.invocations = rowThreads s.workgroupSize + 1 ∧
      (kernel .empty [] op s).workgroups = (workgroupLimit, 2, 1) ∧
      (kernel .empty [] op s).Covers s :=
  ⟨⟨.activation .relu, [⟨[4194241], .data⟩], [4194241], 4194241, 64⟩,
    ⟨⟨0⟩, .activation .relu, [⟨0⟩], [⟨1⟩]⟩, by decide, by decide, rfl, rfl,
    (dispatch_covers _ _ _ _ (by decide) (by decide)).1⟩

end Device

end TensorGraph
