import TensorGraph.Lowering.Artifact
import TensorGraph.Proofs.Lowering.Generation
import TensorGraph.Proofs.Lowering.Layout
import TensorGraph.Proofs.Trace.Acceptance

/-!
# TensorGraph.Proofs.Lowering.Outcome

Which traces can be built, and what all builds of a graph have in common.

* `Device.Supports`: what the device asks of a graph.
* `Graph.lower_succeeds_iff`: on a checked graph nothing else can fail.
* `Graph.lower_describes`, `Graph.lower_alike`: the parts of a descriptor that do not depend on the
  backend.
* `Trace.build_fallback_iff`, `Trace.build_webgpu_iff`: a trace with a graph can be built for the
  fallback under all options, and for the device if it supports the graph that is lowered.
-/

namespace TensorGraph

variable {α κ : Type} {g : Graph α}

open Edit Generation TensorGraph.Graph Trace

namespace Device

/-- What the device asks of a graph: it has no kernel for response normalization, and words of 32
bits to count the elements of constants, and those of other variables. -/
structure Supports (g : Graph α) : Prop where
  operators : ∀ op ∈ g.liveOperators, ∀ p, op.kind ≠ .responseNormalization p
  constants : ((g.liveVariables.filter Variable.isConstant).map Variable.size).sum < 2 ^ 32
  others : ((g.liveVariables.filter fun x => !x.isConstant).map Variable.size).sum < 2 ^ 32

theorem lowerOperator_succeeds_iff {workgroupSize : Nat} {op : Operator α} :
    (∃ x, lowerOperator g workgroupSize op = .ok x) ↔
      ∀ p, op.kind ≠ .responseNormalization p := by
  have planned : (∃ s, KernelSpec.ofOperator g op workgroupSize = .ok s) ↔
      ∀ p, op.kind ≠ .responseNormalization p := by
    unfold KernelSpec.ofOperator
    cases op.kind <;> simp
  rw [← planned]
  simp only [lowerOperator_ok_iff]
  exact ⟨fun ⟨x, _, hx⟩ => ⟨x.2, hx⟩, fun ⟨s, hs⟩ => ⟨(op, s), rfl, hs⟩⟩

end Device

/-- The operands and the results of each kernel. -/
def Descriptor.accesses : Descriptor α → List (List VariableId × List VariableId)
  | .portable d => d.kernels.map fun k => (k.inputs, k.outputs)
  | .device d => d.kernels.map fun k => (k.inputs, k.outputs)

/-- The operands and the results of operators in the given order. -/
def Graph.accesses (g : Graph α) (order : List OperatorId) :
    List (List VariableId × List VariableId) :=
  order.map fun o => (WeightBuffer.operandsOf g o, Device.resultsOf g o)

namespace Recorded

variable {β γ : Type} {s s' : Snapshots}

theorem lift_ok_iff {e : Except GraphError β} {x : β} :
    lift e s = .ok x s' ↔ e = .ok x ∧ s = s' := by
  cases e with
  | ok y => exact ⟨fun h => by cases h; exact ⟨rfl, rfl⟩, fun ⟨h, e⟩ => by cases h; rw [e]; rfl⟩
  | error err => exact ⟨(nomatch ·), fun ⟨h, _⟩ => nomatch h⟩

theorem snapshot_ok (stage : String) (g : Graph α) (s : Snapshots) :
    ∃ s', snapshot stage g s = .ok ⟨⟩ s' :=
  ⟨_, rfl⟩

end Recorded

variable [Scalar α]

/-! ## Backends on a checked graph -/

/-- An order of a checked graph has all operators, and their shapes check. So only the backend can
refuse one. -/
theorem Graph.Checked.lowers_iff (h : g.Checked) {f : Operator α → Except GraphError κ}
    {order : List OperatorId} (found : g.topologicalOrder = .ok order) :
    (∃ xs, List.Forall₂ (Lowers g f) order xs) ↔ ∀ op ∈ g.liveOperators, ∃ x, f op = .ok x := by
  have linked := h.reachable.linked
  have sorted := topologicalOrder_sorted linked found
  obtain ⟨_, typed⟩ := (check_ok_iff linked).1 h.valid
  rw [exists_partners]
  constructor
  · intro all op live
    have ho := (mem_liveOperators linked).1 live
    obtain ⟨x, op', ho', _, lowered⟩ := all op.id ((sorted.mem_iff op.id).2 ⟨op, ho⟩)
    cases ho.symm.trans ho'
    exact ⟨x, lowered⟩
  · intro all o ho
    obtain ⟨op, ho⟩ := (sorted.mem_iff o).1 ho
    have live : g.operatorAt? op.id = some op := linked.operator_id ho ▸ ho
    obtain ⟨x, lowered⟩ := all op ((mem_liveOperators linked).2 live)
    exact ⟨x, op, ho, typed o op ho, lowered⟩

theorem Graph.Checked.ordered (h : g.Checked) :
    g.validate = .ok ⟨⟩ ∧ ∃ order, g.topologicalOrder = .ok order := by
  obtain ⟨rank, sound⟩ := h.tidy.sound
  have linked := h.reachable.linked
  exact ⟨((check_ok_iff linked).1 h.valid).1, topologicalOrder_of_ranked linked sound.ranked⟩

theorem Portable.generate_succeeds (h : g.Checked) (r : Generation) :
    ∃ y r', generate g r = .ok y r' := by
  obtain ⟨valid, order, found⟩ := h.ordered
  obtain ⟨kernels, each⟩ := (h.lowers_iff found).2 fun op _ => ⟨kernel g op, rfl⟩
  obtain ⟨r', run⟩ := (generate_ok_iff (r := r)).2 ⟨order, kernels, ⟨valid, found⟩, each, rfl⟩
  exact ⟨_, r', run⟩

namespace Device

theorem generate_succeeds_iff (h : g.Checked) (workgroupSize : Nat) (r : Generation) :
    (∃ y r', generate g workgroupSize r = .ok y r') ↔ Supports g := by
  have all {order : List OperatorId} (found : g.topologicalOrder = .ok order) :=
    h.lowers_iff (f := lowerOperator g workgroupSize) found
  simp only [lowerOperator_succeeds_iff] at all
  constructor
  · rintro ⟨y, run⟩
    obtain ⟨order, lowered, ⟨_, addressed, found⟩, each, _⟩ := generate_ok_iff.1 run
    obtain ⟨constants, others⟩ := checkAddressable_ok_iff.1 addressed
    exact ⟨(all found).1 ⟨lowered, each⟩, constants, others⟩
  · rintro ⟨operators, constants, others⟩
    obtain ⟨valid, order, found⟩ := h.ordered
    have addressed := checkAddressable_ok_iff.2 ⟨constants, others⟩
    obtain ⟨lowered, each⟩ := (all found).2 operators
    exact ⟨_, generate_ok_iff.2 ⟨order, lowered, ⟨valid, addressed, found⟩, each, rfl⟩⟩

end Device

theorem Graph.lower_ok_iff {options : BuildOptions} {a : Artifacts α} :
    g.lower options = .ok a ↔ ∃ r', g.generate options .start = .ok a r' := by
  rw [Graph.lower, EStateM.run]
  cases g.generate options .start with
  | ok b r' => exact ⟨fun h => by cases h; exact ⟨r', rfl⟩, fun ⟨_, h⟩ => by cases h; rfl⟩
  | error e r' => exact ⟨(nomatch ·), fun ⟨_, h⟩ => nomatch h⟩

/-- The artifacts of a graph are those of a run of its backend. -/
theorem Graph.lower_ok_cases {options : BuildOptions} {a : Artifacts α} :
    g.lower options = .ok a ↔ match options.backend with
      | .fallback => ∃ y r', Portable.generate g .start = .ok y r' ∧ a = ⟨.portable y.1, y.2⟩
      | .webgpu => ∃ y r', Device.generate g (Device.clampedWorkgroupSize options.workgroupSize)
          .start = .ok y r' ∧ a = ⟨.device y.1, y.2⟩ := by
  rw [lower_ok_iff, Graph.generate]
  cases options.backend with
  | fallback =>
    exact run_bind_pure_ok_iff fun y : PortableDescriptor α × WeightBuffer α =>
      Artifacts.mk (.portable y.1) y.2
  | webgpu =>
    exact run_bind_pure_ok_iff fun y : DeviceDescriptor × WeightBuffer α =>
      Artifacts.mk (.device y.1) y.2

/-- A checked graph can be lowered for the fallback, and for the device if this supports it. -/
theorem Graph.lower_succeeds_iff (h : g.Checked) (options : BuildOptions) :
    (∃ a, g.lower options = .ok a) ↔ (options.backend = .webgpu → Device.Supports g) := by
  simp only [lower_ok_cases]
  cases options.backend with
  | fallback =>
    obtain ⟨y, r', run⟩ := Portable.generate_succeeds h .start
    exact ⟨fun _ => (nomatch ·), fun _ => ⟨_, y, r', run, rfl⟩⟩
  | webgpu =>
    simp only [forall_const]
    rw [← Device.generate_succeeds_iff h (Device.clampedWorkgroupSize options.workgroupSize) .start]
    exact ⟨fun ⟨_, y, r', run, _⟩ => ⟨y, r', run⟩, fun ⟨y, r', run⟩ => ⟨_, y, r', run, rfl⟩⟩

/-! ## What every lowering says -/

theorem accesses_eq {f : Operator α → Except GraphError κ}
    {access : κ → List VariableId × List VariableId}
    (faithful : ∀ op x, f op = .ok x → access x = (op.inputs, op.outputs))
    {order : List OperatorId} {xs : List κ} (each : List.Forall₂ (Lowers g f) order xs) :
    xs.map access = g.accesses order := by
  induction each with
  | nil => rfl
  | @cons o x rest xs first _ ih =>
    obtain ⟨op, ho, _, lowered⟩ := first
    have operands : WeightBuffer.operandsOf g o = op.inputs := by
      simp only [WeightBuffer.operandsOf, ho]
    have results : Device.resultsOf g o = op.outputs := by
      simp only [Device.resultsOf, ho]
    rw [List.map_cons, ih, faithful op x lowered, ← operands, ← results]
    rfl

/-- Artifacts of a graph say the same for every backend and all options, up to the code. -/
theorem Graph.lower_describes {options : BuildOptions} {a : Artifacts α}
    (h : g.lower options = .ok a) : ∃ order, g.topologicalOrder = .ok order ∧
      a.weights = .pack g order ∧ a.descriptor.interface = .of g a.weights ∧
      a.descriptor.accesses = g.accesses order := by
  rw [lower_ok_cases] at h
  cases backend : options.backend with
  | fallback =>
    rw [backend] at h
    obtain ⟨y, r', run, rfl⟩ := h
    obtain ⟨order, kernels, ⟨_, found⟩, each, rfl⟩ := Portable.generate_ok_iff.1 ⟨r', run⟩
    refine ⟨order, found, rfl, rfl, accesses_eq (fun op k lowered => ?_) each⟩
    cases lowered
    rfl
  | webgpu =>
    rw [backend] at h
    obtain ⟨y, r', run, rfl⟩ := h
    obtain ⟨order, lowered, ⟨_, _, found⟩, each, rfl⟩ := Device.generate_ok_iff.1 ⟨r', run⟩
    refine ⟨order, found, rfl, rfl, List.map_map.trans (accesses_eq (fun op x planned => ?_) each)⟩
    rw [← (Device.lowerOperator_ok_iff.1 planned).1]
    rfl

/-- Artifacts of one graph agree on all that does not depend on the backend. -/
theorem Graph.lower_alike {options options' : BuildOptions} {a a' : Artifacts α}
    (h : g.lower options = .ok a) (h' : g.lower options' = .ok a') :
    a.descriptor.interface = a'.descriptor.interface ∧ a.weights = a'.weights ∧
      a.descriptor.accesses = a'.descriptor.accesses := by
  obtain ⟨order, found, weights, interface, accesses⟩ := lower_describes h
  obtain ⟨order', found', weights', interface', accesses'⟩ := lower_describes h'
  cases found.symm.trans found'
  have same : a.weights = a'.weights := weights.trans weights'.symm
  exact ⟨by rw [interface, interface', same], same, accesses.trans accesses'.symm⟩

/-! ## From a trace to its artifacts -/

variable {t : Trace} {options : BuildOptions} {s : Snapshots}

/-- Optimizing does not fail. -/
theorem Trace.optimizedGraph_ok (options : BuildOptions) (s : Snapshots) {g₀ : Graph Binary32}
    (h : t.toGraph = .ok g₀) : ∃ g s', t.optimizedGraph options s = .ok g s' ∧ g.Checked := by
  have checked := Conversion.toGraph_checked h
  obtain ⟨s₁, shown⟩ := Recorded.snapshot_ok "converted" g₀ s
  rw [optimizedGraph, run_bind_ok (Recorded.lift_ok_iff.2 ⟨h, rfl⟩), run_bind_ok shown]
  split
  · obtain ⟨g, s', run, tidy, _, reachable⟩ := rounds_run (PassKind.enabled options.optimizer)
      options.optimizer.maxRounds checked.tidy s₁
    refine ⟨g, s', ?_, tidy.checked (reachable checked.reachable)⟩
    rw [Graph.optimize, PassKind.enabled_eq]
    exact run
  · exact ⟨g₀, s₁, rfl, checked⟩

theorem Trace.optimizedGraph_succeeds_iff :
    (∃ g s', t.optimizedGraph options s = .ok g s') ↔ ∃ g, t.toGraph = .ok g := by
  constructor
  · rintro ⟨g, s', h⟩
    obtain ⟨g₀, _, converted, _⟩ := run_bind_ok_iff.1 h
    exact ⟨g₀, (Recorded.lift_ok_iff.1 converted).1⟩
  · rintro ⟨g₀, h⟩
    obtain ⟨g, s', run, _⟩ := optimizedGraph_ok options s h
    exact ⟨g, s', run⟩

theorem Trace.build_ok_iff : (∃ a s', t.build options s = .ok a s') ↔
    ∃ g s', t.optimizedGraph options s = .ok g s' ∧ ∃ a, g.lower options = .ok a := by
  constructor
  · rintro ⟨a, s', h⟩
    obtain ⟨g, s₁, converted, h⟩ := run_bind_ok_iff.1 h
    obtain ⟨_, _, _, h⟩ := run_bind_ok_iff.1 h
    exact ⟨g, s₁, converted, a, (Recorded.lift_ok_iff.1 h).1⟩
  · rintro ⟨g, s₁, converted, a, lowered⟩
    obtain ⟨s₂, shown⟩ := Recorded.snapshot_ok "before generation" g s₁
    refine ⟨a, s₂, ?_⟩
    rw [build, run_bind_ok converted, run_bind_ok shown]
    exact Recorded.lift_ok_iff.2 ⟨lowered, rfl⟩

theorem Trace.build_supported_iff : (∃ a s', t.build options s = .ok a s') ↔
    ∃ g s', t.optimizedGraph options s = .ok g s' ∧
      (options.backend = .webgpu → Device.Supports g) := by
  rw [build_ok_iff]
  refine exists_congr fun g => exists_congr fun s' => and_congr_right fun run => ?_
  obtain ⟨g₀, h⟩ := optimizedGraph_succeeds_iff.1 ⟨g, s', run⟩
  obtain ⟨g', _, run', checked⟩ := optimizedGraph_ok options s h
  cases run.symm.trans run'
  exact lower_succeeds_iff checked options

/-- A trace can be built for the fallback exactly if it has a graph, whatever the optimizer is told
to do. -/
theorem Trace.build_fallback_iff (backend : options.backend = .fallback) :
    (∃ a s', t.build options s = .ok a s') ↔ ∃ g, t.toGraph = .ok g := by
  rw [build_supported_iff, ← optimizedGraph_succeeds_iff, backend]
  exact exists_congr fun g => exists_congr fun s' => and_iff_left (nomatch ·)

/-- The device has to support the graph that is lowered as well. -/
theorem Trace.build_webgpu_iff (backend : options.backend = .webgpu) :
    (∃ a s', t.build options s = .ok a s') ↔ (∃ g, t.toGraph = .ok g) ∧
      ∃ g s', t.optimizedGraph options s = .ok g s' ∧ Device.Supports g := by
  rw [build_supported_iff, ← optimizedGraph_succeeds_iff, backend]
  constructor
  · rintro ⟨g, s', run, supports⟩
    exact ⟨⟨g, s', run⟩, g, s', run, supports rfl⟩
  · rintro ⟨_, g, s', run, supports⟩
    exact ⟨g, s', run, fun _ => supports⟩

end TensorGraph
