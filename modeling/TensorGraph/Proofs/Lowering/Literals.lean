import TensorGraph.Proofs.Lowering.Outcome
import TensorGraph.Proofs.Lowering.Sharing
import TensorGraph.Proofs.Shader.Range

/-!
# TensorGraph.Proofs.Lowering.Literals

Which unsigned literals the shader module of a trace has.

* `KernelSpec.literals_name`: the names of kernels have none.
* `DeviceDescriptor.literals_source`: the literals of a module are those of its kernels.
* `Graph.Spells`: the numbers of operators that no shape bounds.
* `Device.Specifies`: what the specification of a kernel takes over from its operator.
* `Device.generate_fits`, `Device.generate_spells`: a literal fits a word of the device or is such a
  number, and all of these are spelled out.
* `Trace.build_literals`: so it is for the module that is built from a trace.
-/

namespace TensorGraph

open Text Device Generation TensorGraph.Graph

namespace OperatorKind

variable {α : Type} (input other : Extent)

/-- Margins in front of an image stay as they are when they become explicit. -/
theorem windowNumbers_convolution (p : Convolution α) :
    windowNumbers other (.convolution (p.withExplicitMargins input)) =
      windowNumbers input (.convolution p) := rfl

theorem windowNumbers_pooling (p : Pooling) :
    windowNumbers other (.pooling (p.withExplicitMargins input) : OperatorKind α) =
      windowNumbers input (.pooling p : OperatorKind α) := by
  simp only [windowNumbers, windowNumbers.numbers, Pooling.withExplicitMargins, Padding.resolve,
    Pooling.effectiveMargins]
  split <;> rfl

end OperatorKind

namespace KernelSpec

theorem literals_name (s : KernelSpec Binary32) : literals s.name = [] := by
  have digits : (fingerprint s.signature).toList.all isWordChar := by
    have all : "0123456789abcdef".toList.all isWordChar := by decide
    exact List.all_eq_true.2 fun c hc => List.all_eq_true.1 all c (mem_fingerprint hc)
  have kind : s.kind.name.toList.all isWordChar ∧
      s.kind.name.toList.head?.map Char.isDigit = some false := by
    cases s.kind with
    | activation a =>
      cases a <;> simp only [OperatorKind.name, Activation.name] <;> decide
    | pooling p =>
      simp only [OperatorKind.name]
      cases p.mode <;> decide
    | _ =>
      simp only [OperatorKind.name]
      decide
  obtain ⟨word, letter⟩ := kind
  refine Text.literals_name ?_ ?_
  · simp only [name, String.toList_append, List.all_append, word, digits]
    decide
  · obtain ⟨c, first, _⟩ := Option.map_eq_some_iff.1 letter
    rw [first] at letter
    simp only [name, String.toList_append, List.append_assoc, List.head?_append, first,
      Option.some_or, letter]

end KernelSpec

namespace DeviceDescriptor

theorem literals_source (d : DeviceDescriptor) :
    literals d.source = d.entryPoints.flatMap fun e => literals e.text := by
  have joined (entries : List EntryPoint) (text : String) :
      literals (entries.foldl (fun text e => text ++ "\n" ++ e.text) text) =
        literals text ++ entries.flatMap fun e => literals e.text := by
    induction entries generalizing text with
    | nil => simp
    | cons e rest ih =>
      rw [List.foldl_cons, ih, Shader.literals_between (by decide) (by decide) (by decide),
        List.flatMap_cons, List.append_assoc]
  have bound : literals bindings = [] :=
    literals_append_nil (.inr (by decide))
      (literals_append_nil (.inr (by decide)) (by decide) (by decide)) (by decide)
  rw [source, joined, bound, List.nil_append]

end DeviceDescriptor

variable {g : Graph Binary32}

/-- The extent of the image that an operator reads. -/
def Graph.imageExtent {α : Type} (g : Graph α) (op : Operator α) : Extent :=
  match op.inputs.head?.bind fun v => ImageShape.ofShape? (g.shape v) with
  | some image => ⟨image.height, image.width⟩
  | none => ⟨0, 0⟩

/-- An operator has such a number, which its kernel spells out and which no shape bounds: the place
of an operand, or a parameter of the window. -/
def Graph.Spells (g : Graph Binary32) (n : Nat) : Prop :=
  ∃ op ∈ g.liveOperators, n ≤ op.inputs.length ∨ n ∈ op.kind.windowNumbers (g.imageExtent op)

namespace Device

/-- Shapes that the device can count. Those of ids that are not live count as one element. -/
theorem shape_addressable (linked : g.Linked) (valid : g.validate = .ok ⟨⟩)
    (addressed : checkAddressable g = .ok ⟨⟩) (v : VariableId) : (g.shape v).Addressable := by
  obtain ⟨constants, others⟩ := checkAddressable_ok_iff.1 addressed
  obtain ⟨records, _⟩ := (validate_iff linked).1 valid
  rw [Graph.shape]
  cases hx : g.variableAt? v with
  | none => exact ⟨by decide, by decide⟩
  | some x =>
    have live := (mem_liveVariables linked).2 (linked.variable_id hx ▸ hx)
    refine ⟨(records v x hx).positive, ?_⟩
    by_cases constant : x.isConstant
    · refine Nat.lt_of_le_of_lt (List.single_le_sum (fun _ _ => Nat.zero_le _) _ ?_) constants
      exact List.mem_map_of_mem (List.mem_filter.2 ⟨live, constant⟩)
    · refine Nat.lt_of_le_of_lt (List.single_le_sum (fun _ _ => Nat.zero_le _) _ ?_) others
      exact List.mem_map_of_mem (List.mem_filter.2 ⟨live, by simpa using constant⟩)

/-- What a specification takes over from its operator. -/
structure Specifies (g : Graph Binary32) (op : Operator Binary32) (workgroupSize : Nat)
    (s : KernelSpec Binary32) : Prop where
  inputs : s.inputs = op.inputs.map (KernelSpec.operandOf g)
  output : s.output = [] ∨ ∃ v, s.output = g.shape v
  invocations : s.invocations ≤ s.output.size
  workgroupSize : s.workgroupSize = workgroupSize
  window : s.kind.windowNumbers ⟨0, 0⟩ = op.kind.windowNumbers (g.imageExtent op)

theorem ofOperator_specifies {op : Operator Binary32} {workgroupSize : Nat}
    {s : KernelSpec Binary32} (planned : KernelSpec.ofOperator g op workgroupSize = .ok s) :
    Specifies g op workgroupSize s := by
  obtain ⟨id, kind, inputs, outputs⟩ := op
  cases kind with
  | convolution p =>
    cases planned
    refine ⟨rfl, by cases outputs <;> simp, Nat.le_refl _, rfl, ?_⟩
    cases inputs <;> exact OperatorKind.windowNumbers_convolution _ _ p
  | pooling p =>
    cases planned
    refine ⟨rfl, by cases outputs <;> simp, Nat.le_refl _, rfl, ?_⟩
    cases inputs <;> exact OperatorKind.windowNumbers_pooling _ _ p
  | softmax axis =>
    cases planned
    exact ⟨rfl, by cases outputs <;> simp, Nat.div_le_self _ _, rfl, rfl⟩
  | responseNormalization => cases planned
  | linear | activation | batchNormalization | reshape | elementwiseAdd | scalarAffine
      | axiswiseAffine =>
    cases planned
    exact ⟨rfl, by cases outputs <;> simp, Nat.le_refl _, rfl, rfl⟩

theorem Specifies.addressable {op : Operator Binary32} {workgroupSize : Nat}
    {s : KernelSpec Binary32} (h : Specifies g op workgroupSize s)
    (shapes : ∀ v, (g.shape v).Addressable) (size : workgroupSize < 2 ^ 32) : s.Addressable := by
  have output : s.output.Addressable := by
    rcases h.output with empty | ⟨v, shape⟩
    · rw [empty]
      exact ⟨by decide, by decide⟩
    · rw [shape]
      exact shapes v
  refine ⟨?_, output, Nat.lt_of_le_of_lt h.invocations output.bounded, h.workgroupSize ▸ size⟩
  rw [h.inputs, List.forall_mem_map]
  exact fun v _ => shapes v

theorem lowers_specifies {workgroupSize : Nat} {o : OperatorId}
    {x : Operator Binary32 × KernelSpec Binary32}
    (lowers : Lowers g (lowerOperator g workgroupSize) o x) : ∃ op, g.operatorAt? o = some op ∧
      g.Plans workgroupSize x.2 ∧ Specifies g op workgroupSize x.2 := by
  obtain ⟨op, ho, _, made⟩ := lowers
  have planned := (lowerOperator_ok_iff.1 made).2
  exact ⟨op, ho, ⟨o, op, ho, planned⟩, ofOperator_specifies planned⟩

theorem entryPointOf_mem {specs : List (KernelSpec Binary32)}
    (tell : ∀ s ∈ specs, ∀ s' ∈ specs, s.name = s'.name → s.signature = s'.signature)
    {s : KernelSpec Binary32} (hs : s ∈ specs) : entryPointOf s ∈ firstUses [] specs := by
  have own : entryPointOf s ∈ [entryPointOf s] := List.mem_singleton_self _
  rw [← filter_firstUses tell hs] at own
  exact (List.mem_filter.1 own).1

variable {workgroupSize : Nat} {r r' : Generation} {d : DeviceDescriptor}
  {weights : WeightBuffer Binary32}

/-- Each entry point has the text of some operator. -/
theorem generate_fits (h : g.Checked) (size : workgroupSize < 2 ^ 32)
    (generated : generate g workgroupSize r = .ok (d, weights) r') {n : Nat}
    (hn : n ∈ literals d.source) : n < 2 ^ 32 ∨ g.Spells n := by
  obtain ⟨order, lowered, ⟨_, addressed, _⟩, each, made⟩ := generate_ok_iff.1 ⟨r', generated⟩
  cases made
  have linked := h.reachable.linked
  rw [DeviceDescriptor.literals_source] at hn
  obtain ⟨e, he, hn⟩ := List.mem_flatMap.1 hn
  obtain ⟨s, hs, rfl⟩ := mem_firstUses he
  obtain ⟨x, hx, rfl⟩ := List.mem_map.1 hs
  obtain ⟨o, _, lowers⟩ := exists_left each hx
  obtain ⟨op, ho, _, specifies⟩ := lowers_specifies lowers
  have live : op ∈ g.liveOperators := (mem_liveOperators linked).2 (linked.operator_id ho ▸ ho)
  have able := specifies.addressable (shape_addressable linked h.ordered.1 addressed) size
  rcases able.fits x.2.literals_name n hn with fits | place | window
  · exact .inl fits
  · rw [specifies.inputs, List.length_map] at place
    exact .inr ⟨op, live, .inl place⟩
  · exact .inr ⟨op, live, .inr (specifies.window ▸ window)⟩

/-- Each operator has an entry point with its text, if names tell texts apart. -/
theorem generate_spells (h : g.Checked) (separates : g.Separates workgroupSize)
    (generated : generate g workgroupSize r = .ok (d, weights) r') {n : Nat} (hn : g.Spells n) :
    n ∈ literals d.source := by
  obtain ⟨order, lowered, ⟨_, _, sorted⟩, each, made⟩ := generate_ok_iff.1 ⟨r', generated⟩
  cases made
  have linked := h.reachable.linked
  obtain ⟨op, live, hn⟩ := hn
  have ho := (mem_liveOperators linked).1 live
  have listed := ((topologicalOrder_sorted linked sorted).mem_iff op.id).2 ⟨op, ho⟩
  obtain ⟨x, hx, lowers⟩ := exists_right each listed
  obtain ⟨op', ho', _, specifies⟩ := lowers_specifies lowers
  cases ho.symm.trans ho'
  have plans : ∀ s ∈ lowered.map Prod.snd, g.Plans workgroupSize s := by
    intro s hs
    obtain ⟨y, hy, rfl⟩ := List.mem_map.1 hs
    obtain ⟨o, _, lowers⟩ := exists_left each hy
    exact (lowers_specifies lowers).choose_spec.2.1
  have entry := entryPointOf_mem (fun s hs s' hs' same => separates s s' (plans s hs) (plans s' hs')
    (KernelSpec.fingerprint_eq_of_name same)) (List.mem_map_of_mem hx)
  rw [DeviceDescriptor.literals_source]
  refine List.mem_flatMap.2 ⟨_, entry, KernelSpec.spelled x.2.literals_name ?_⟩
  rw [specifies.inputs, List.length_map, specifies.window]
  exact hn

end Device

/-- The run of the device behind a build. -/
theorem Trace.build_generates {t : Trace} {options : BuildOptions} {s s' : Snapshots}
    {a : Artifacts Binary32} (backend : options.backend = .webgpu)
    (built : t.build options s = .ok a s') : ∃ g s₁ d weights r,
      t.optimizedGraph options s = .ok g s₁ ∧ g.Checked ∧ a = ⟨.device d, weights⟩ ∧
      generate g (clampedWorkgroupSize options.workgroupSize) .start = .ok (d, weights) r := by
  obtain ⟨g, s₁, optimized, h⟩ := Edit.run_bind_ok_iff.1 built
  obtain ⟨_, _, _, h⟩ := Edit.run_bind_ok_iff.1 h
  have lowered := (Recorded.lift_ok_iff.1 h).1
  obtain ⟨g₀, converted⟩ := optimizedGraph_succeeds_iff.1 ⟨g, s₁, optimized⟩
  obtain ⟨g', _, run, checked⟩ := optimizedGraph_ok options s converted
  cases optimized.symm.trans run
  rw [Graph.lower_ok_cases, backend] at lowered
  obtain ⟨⟨d, weights⟩, r, generated, made⟩ := lowered
  exact ⟨g, s₁, d, weights, r, optimized, checked, made, generated⟩

theorem Device.clampedWorkgroupSize_lt (n : Nat) : clampedWorkgroupSize n < 2 ^ 32 := by
  rw [clampedWorkgroupSize, maxWorkgroupSize]
  omega

/-- Every unsigned literal of the module that is built from a trace fits a word of the device, but
for the places of operands and the parameters of windows, which nothing bounds: those are spelled
out as they are, if the names of kernels tell their signatures apart. -/
theorem Trace.build_literals {t : Trace} {options : BuildOptions} {s s' : Snapshots}
    {a : Artifacts Binary32} (backend : options.backend = .webgpu)
    (built : t.build options s = .ok a s') : ∃ g s₁ text,
      t.optimizedGraph options s = .ok g s₁ ∧ a.descriptor.source? = some text ∧
      (∀ n ∈ literals text, n < 2 ^ 32 ∨ g.Spells n) ∧
      (g.Separates (clampedWorkgroupSize options.workgroupSize) →
        ∀ n, g.Spells n → n ∈ literals text) := by
  obtain ⟨g, s₁, d, _, r, optimized, checked, rfl, generated⟩ := build_generates backend built
  exact ⟨g, s₁, d.source, optimized, rfl,
    fun _ => generate_fits checked (clampedWorkgroupSize_lt _) generated,
    fun separates _ => generate_spells checked separates generated⟩

/-- A pooling of one pixel whose stride does not fit a word. -/
def Trace.vastStride : Trace :=
  Trace.empty.addVariable "x" [1, 1, 1, 1] |>.addVariable "y" [1, 1, 1, 1]
    |>.addNode "MaxPooling2D" ["x"] ["y"] (.object [("kh", .nat 1), ("sy", .nat (2 ^ 32))])
    |>.designate ["x"] ["y"]

theorem Trace.vastStride_builds :
    ∃ a s', vastStride.build (.forBackend .webgpu) .unwanted = .ok a s' := by
  have builds : (match vastStride.build (.forBackend .webgpu) .unwanted with
    | .ok _ _ => true
    | .error _ _ => false) = true := by decide
  cases run : vastStride.build (.forBackend .webgpu) .unwanted with
  | ok a s' => exact ⟨a, s', rfl⟩
  | error e s' =>
    rw [run] at builds
    cases builds

theorem Trace.vastStride_operator {g : Graph Binary32} {s₁ : Snapshots}
    (h : vastStride.optimizedGraph (.forBackend .webgpu) .unwanted = .ok g s₁) :
    ∃ op, g.liveOperators = [op] ∧ op.inputs = [⟨0⟩] ∧
      ∀ input, op.kind.windowNumbers input = [1, 1, 2 ^ 32, 1, 0, 0] := by
  have single : (match vastStride.optimizedGraph (.forBackend .webgpu) .unwanted with
    | .ok g _ => g.liveOperators.map fun op => (op.inputs, op.kind)
    | .error _ _ => []) =
      [([⟨0⟩], .pooling ⟨.max, ⟨1, 1⟩, ⟨2 ^ 32, 1⟩, .symmetric 0 0, true⟩)] := by
    decide
  rw [h] at single
  obtain ⟨op, live, shown⟩ := List.map_eq_singleton_iff.1 single
  obtain ⟨inputs, kind⟩ := Prod.mk.inj shown
  exact ⟨op, live, inputs, fun input => kind ▸ rfl⟩

/-- The code of a single operator is told from nothing else. -/
theorem Graph.separates_of_single (linked : g.Linked) {op : Operator Binary32}
    (single : g.liveOperators = [op]) (workgroupSize : Nat) : g.Separates workgroupSize := by
  have only {o : OperatorId} {op' : Operator Binary32} (ho : g.operatorAt? o = some op') :
      op' = op := by
    have live := (mem_liveOperators linked).2 (linked.operator_id ho ▸ ho)
    rwa [single, List.mem_singleton] at live
  rintro s s' ⟨o, op₁, ho, plan⟩ ⟨o', op₂, ho', plan'⟩ _
  cases only ho
  cases only ho'
  cases plan.symm.trans plan'
  rfl

/-- Such a stride is not refused, and the module spells it out. -/
theorem Trace.vastStride_spelled : ∃ a s' text,
    vastStride.build (.forBackend .webgpu) .unwanted = .ok a s' ∧
      a.descriptor.source? = some text ∧ 2 ^ 32 ∈ literals text := by
  obtain ⟨a, s', built⟩ := vastStride_builds
  obtain ⟨g, s₁, d, weights, r, optimized, checked, made, generated⟩ := build_generates rfl built
  obtain ⟨op, single, _, window⟩ := vastStride_operator optimized
  have spells : g.Spells (2 ^ 32) := by
    refine ⟨op, single ▸ List.mem_singleton_self op, .inr ?_⟩
    rw [window]
    decide
  refine ⟨a, s', d.source, built, made ▸ rfl, ?_⟩
  exact generate_spells checked (separates_of_single checked.reachable.linked single _) generated
    spells

theorem Trace.build_literals_vastStride : ∃ a s' text,
    vastStride.build (.forBackend .webgpu) .unwanted = .ok a s' ∧
      a.descriptor.source? = some text ∧ ∀ n ∈ literals text, n < 2 ^ 32 ∨ n = 2 ^ 32 := by
  obtain ⟨a, s', built⟩ := vastStride_builds
  obtain ⟨g, s₁, text, optimized, source, fit, _⟩ := build_literals rfl built
  obtain ⟨op, single, inputs, window⟩ := vastStride_operator optimized
  refine ⟨a, s', text, built, source, fun n hn => ?_⟩
  rcases fit n hn with small | ⟨op', live, spelled⟩
  · exact .inl small
  · rw [single, List.mem_singleton] at live
    rw [live, inputs, window] at spelled
    simp only [List.length_singleton, List.mem_cons, List.not_mem_nil, or_false] at spelled
    omega

end TensorGraph
