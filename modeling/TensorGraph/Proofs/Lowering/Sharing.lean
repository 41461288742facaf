import TensorGraph.Proofs.Graph.Reachable
import TensorGraph.Proofs.Lists
import TensorGraph.Proofs.Lowering.Generation
import TensorGraph.Proofs.Shader.Reading

/-!
# TensorGraph.Proofs.Lowering.Sharing

Which operators share a kernel.

* `KernelSpec.name_eq_of_signature`, `KernelSpec.fingerprint_eq_of_name`: names are made of the
  kind, which the signature tells, and of digits of the digest of the signature.
* `Device.firstUses_names`, `Device.filter_firstUses`: the entry points of a module.
* `Device.firstUses_blank_nodup`: their texts differ in more than their names.
* `Graph.Separates`: the digits tell the signatures that occur in a graph apart.
* `generate_shares`: then dispatches share an entry point exactly if they need the same code.
-/

namespace TensorGraph

theorem Text.hexDigit_mem (n : Nat) : hexDigit n ∈ "0123456789abcdef".toList := by
  rw [hexDigit, List.getD_eq_getElem?_getD]
  cases found : "0123456789abcdef".toList[n]? with
  | none => decide
  | some c => exact List.mem_of_getElem? found

theorem Text.mem_hexDigits {count n : Nat} {c : Char} (h : c ∈ hexDigits count n) :
    c ∈ "0123456789abcdef".toList := by
  induction count generalizing n with
  | zero => cases h
  | succ count ih =>
    rcases List.mem_append.1 h with h | h
    · exact ih h
    · rw [List.mem_singleton.1 h]
      exact hexDigit_mem _

namespace KernelSpec

variable {α : Type} [Scalar α] {s s' : KernelSpec α}

theorem mem_fingerprint {text : String} {c : Char} (h : c ∈ (fingerprint text).toList) :
    c ∈ "0123456789abcdef".toList := by
  rw [fingerprint, Text.hexBytes, String.toList_ofList] at h
  obtain ⟨b, _, h⟩ := List.mem_flatMap.1 h
  exact Text.mem_hexDigits h

/-- A name ends with the digits behind its last underscore. -/
theorem fingerprint_of_name (s : KernelSpec α) :
    (s.name.toList.reverse.takeWhile (· ≠ '_')).reverse = (fingerprint s.signature).toList := by
  have digits : '_' ∉ (fingerprint s.signature).toList.reverse := fun h =>
    absurd (mem_fingerprint (List.mem_reverse.1 h)) (by decide)
  have parts : s.name.toList.reverse =
      (fingerprint s.signature).toList.reverse ++ '_' :: s.kind.name.toList.reverse := by
    simp [name]
  rw [parts, Text.takeWhile_append digits, List.reverse_reverse]

theorem fingerprint_eq_of_name (same : s.name = s'.name) :
    fingerprint s.signature = fingerprint s'.signature := by
  apply String.toList_inj.1
  rw [← fingerprint_of_name, ← fingerprint_of_name, same]

/-- The kind in a name says nothing that the signature does not say. -/
theorem name_eq_of_signature (same : s.signature = s'.signature) : s.name = s'.name := by
  rw [name, name, kind_eq_of_signature same, same]

theorem name_plain (s : KernelSpec α) : '(' ∉ s.name.toList := by
  have digits : '(' ∉ (fingerprint s.signature).toList := fun h =>
    absurd (mem_fingerprint h) (by decide)
  have kind : '(' ∉ s.kind.name.toList := by
    cases s.kind with
    | activation a => cases a <;> simp [OperatorKind.name, Activation.name]
    | pooling p => cases mode : p.mode <;> simp [OperatorKind.name, mode]
    | _ => simp [OperatorKind.name]
  simp [name, digits, kind]

end KernelSpec

namespace Device

open KernelSpec

variable {α : Type} [Scalar α]

/-- The entry point that a specification asks for. -/
def entryPointOf (s : KernelSpec α) : EntryPoint := ⟨s.name, s.source s.name⟩

theorem firstUses_names (seen : List String) (specs : List (KernelSpec α)) :
    (firstUses seen specs).map EntryPoint.name =
      ((specs.map KernelSpec.name).removeAll seen).eraseDups := by
  induction specs generalizing seen with
  | nil => rfl
  | cons s rest ih =>
    rw [List.map_cons, firstUses]
    split
    · next met => rw [ih, removeAll_cons_old (by simpa using met)]
    · next new => rw [List.map_cons, ih, eraseDups_cons_new (by simpa using new)]

theorem mem_firstUses {seen : List String} {specs : List (KernelSpec α)} {e : EntryPoint}
    (h : e ∈ firstUses seen specs) : ∃ s ∈ specs, e = entryPointOf s := by
  induction specs generalizing seen with
  | nil => cases h
  | cons s rest ih =>
    have later {seen : List String} (h : e ∈ firstUses seen rest) :
        ∃ s' ∈ s :: rest, e = entryPointOf s' := by
      obtain ⟨s', mem, same⟩ := ih h
      exact ⟨s', List.mem_cons_of_mem s mem, same⟩
    rw [firstUses] at h
    split at h
    · exact later h
    · rcases List.mem_cons.1 h with same | h
      · exact ⟨s, List.mem_cons_self, same⟩
      · exact later h

theorem entryPointOf_eq_of_signature {s s' : KernelSpec α} (same : s.signature = s'.signature) :
    entryPointOf s = entryPointOf s' := by
  rw [entryPointOf, entryPointOf, name_eq_of_signature same, source_eq_of_signature same]

theorem firstUses_nodup (specs : List (KernelSpec α)) :
    ((firstUses [] specs).map EntryPoint.name).Nodup := by
  rw [firstUses_names]
  exact nodup_eraseDups _

/-- Under the name of a specification stands its own text, if names tell signatures apart. -/
theorem filter_firstUses {specs : List (KernelSpec α)}
    (tell : ∀ s ∈ specs, ∀ s' ∈ specs, s.name = s'.name → s.signature = s'.signature)
    {s : KernelSpec α} (hs : s ∈ specs) :
    (firstUses [] specs).filter (·.name = s.name) = [entryPointOf s] := by
  have listed : s.name ∈ (firstUses [] specs).map EntryPoint.name := by
    rw [firstUses_names, removeAll_nil]
    exact List.mem_eraseDups.2 (List.mem_map_of_mem hs)
  obtain ⟨e, he, named⟩ := List.mem_map.1 listed
  obtain ⟨s', hs', rfl⟩ := mem_firstUses he
  rw [entryPointOf_eq_of_signature (tell s' hs' s hs named)] at he
  exact filter_key (firstUses_nodup specs) he

/-- Texts that are the same but for their names belong to one name. -/
theorem firstUses_blank_nodup (specs : List (KernelSpec α)) :
    ((firstUses [] specs).map fun e => renamed "" e.text).Nodup := by
  refine List.Nodup.map_on ?_ ((firstUses_nodup specs).of_map _)
  intro e he e' he' same
  obtain ⟨s, _, rfl⟩ := mem_firstUses he
  obtain ⟨s', _, rfl⟩ := mem_firstUses he'
  apply entryPointOf_eq_of_signature
  rw [signature, signature, ← renamed_source s s.name_plain "",
    ← renamed_source s' s'.name_plain ""]
  exact same

end Device

open Device KernelSpec

variable {α : Type}

/-- An operator of the graph is lowered to the specification. -/
def Graph.Plans (g : Graph α) (workgroupSize : Nat) (s : KernelSpec α) : Prop :=
  ∃ o op, g.operatorAt? o = some op ∧ ofOperator g op workgroupSize = .ok s

/-- The digits in names tell the signatures that occur in a graph apart. -/
def Graph.Separates [Scalar α] (g : Graph α) (workgroupSize : Nat) : Prop :=
  ∀ s s', g.Plans workgroupSize s → g.Plans workgroupSize s' →
    fingerprint s.signature = fingerprint s'.signature → s.signature = s'.signature

/-- Every dispatch has an entry point of its own or shares one: under its name there is exactly one
text, and it is that of its specification. Dispatches share an entry point exactly if their
specifications have one signature. Entry points come in the order of their first use, without
repetition, and their texts differ in more than their names. -/
theorem Graph.generate_shares [Scalar α] {g : Graph α} {workgroupSize : Nat}
    (separates : g.Separates workgroupSize) {r r' : Generation} {d : DeviceDescriptor}
    {weights : WeightBuffer α} (generated : generate g workgroupSize r = .ok (d, weights) r') :
    ∃ order specs, g.topologicalOrder = .ok order ∧
      List.Forall₂ (fun o s => ∃ op, g.operatorAt? o = some op ∧
        ofOperator g op workgroupSize = .ok s) order specs ∧
      specs.length = d.kernels.length ∧
      (∀ x ∈ specs.zip d.kernels, d.entryPoints.filter (·.name = x.2.entryPoint) =
        [⟨x.2.entryPoint, x.1.source x.2.entryPoint⟩]) ∧
      (∀ x ∈ specs.zip d.kernels, ∀ y ∈ specs.zip d.kernels,
        x.2.entryPoint = y.2.entryPoint ↔ x.1.signature = y.1.signature) ∧
      d.entryPoints.map EntryPoint.name =
        (d.kernels.map DeviceKernel.entryPoint).eraseDups ∧
      (d.entryPoints.map fun e => renamed "" e.text).Nodup := by
  obtain ⟨order, lowered, ⟨_, _, sorted⟩, each, made⟩ := generate_ok_iff.1 ⟨r', generated⟩
  cases made
  have planned : List.Forall₂ (fun o s => ∃ op, g.operatorAt? o = some op ∧
      ofOperator g op workgroupSize = .ok s) order (lowered.map Prod.snd) := by
    refine List.forall₂_map_right_iff.2 (each.imp ?_)
    rintro o x ⟨op, ho, _, lowers⟩
    exact ⟨op, ho, (lowerOperator_ok_iff.1 lowers).2⟩
  have plans : ∀ s ∈ lowered.map Prod.snd, g.Plans workgroupSize s := by
    intro s hs
    obtain ⟨o, _, plan⟩ := exists_left planned hs
    exact ⟨o, plan⟩
  have tell : ∀ s ∈ lowered.map Prod.snd, ∀ s' ∈ lowered.map Prod.snd,
      s.name = s'.name → s.signature = s'.signature := fun s hs s' hs' same =>
    separates s s' (plans s hs) (plans s' hs') (fingerprint_eq_of_name same)
  have zipped : (lowered.map Prod.snd).zip
      (lowered.map fun x => kernel (.pack g order) (allocate g order) x.1 x.2) =
        lowered.map fun x => (x.2, kernel (.pack g order) (allocate g order) x.1 x.2) :=
    List.zip_map' ..
  refine ⟨order, lowered.map Prod.snd, sorted, planned, ?_, ?_, ?_, ?_, firstUses_blank_nodup _⟩
  · show (lowered.map _).length = (lowered.map _).length
    rw [List.length_map, List.length_map]
  · show ∀ x ∈ (lowered.map Prod.snd).zip (lowered.map _), _
    rw [zipped, List.forall_mem_map]
    exact fun x hx => filter_firstUses tell (List.mem_map_of_mem hx)
  · show ∀ x ∈ (lowered.map Prod.snd).zip (lowered.map _),
      ∀ y ∈ (lowered.map Prod.snd).zip (lowered.map _), _
    rw [zipped, List.forall_mem_map]
    intro x hx
    rw [List.forall_mem_map]
    intro y hy
    exact ⟨tell _ (List.mem_map_of_mem hx) _ (List.mem_map_of_mem hy), name_eq_of_signature⟩
  · show (firstUses [] _).map EntryPoint.name = ((lowered.map _).map _).eraseDups
    rw [firstUses_names, removeAll_nil, List.map_map, List.map_map]
    rfl

/-- An activation of an activation of the same shape. -/
def Graph.repeatedRelu : Graph Binary32 :=
  afterCalls .empty
    [.addVariable "x" [2], .addVariable "y" [2], .addVariable "z" [2],
      .addOperator (.activation .relu) [⟨0⟩] [⟨1⟩], .addOperator (.activation .relu) [⟨1⟩] [⟨2⟩],
      .designateInputs [⟨0⟩], .designateOutputs [⟨2⟩]]

theorem Graph.repeatedRelu_plans {s : KernelSpec Binary32} (h : repeatedRelu.Plans 64 s) :
    s = ⟨.activation .relu, [⟨[2], .data⟩], [2], 2, 64⟩ := by
  obtain ⟨⟨i⟩, op, ho, plan⟩ := h
  match i with
  | 0 =>
    cases ho
    cases plan
    rfl
  | 1 =>
    cases ho
    cases plan
    rfl
  | i + 2 => cases ho

theorem Graph.generate_shares_repeatedRelu : repeatedRelu.Separates 64 ∧ ∃ d weights r,
    generate repeatedRelu 64 .start = .ok (d, weights) r ∧ d.kernels.length = 2 ∧
      d.entryPoints.map EntryPoint.name = (d.kernels.map DeviceKernel.entryPoint).eraseDups ∧
      ∀ k ∈ d.kernels, ∀ k' ∈ d.kernels, k.entryPoint = k'.entryPoint := by
  have separates : repeatedRelu.Separates 64 := by
    intro s s' plan plan' _
    rw [repeatedRelu_plans plan, repeatedRelu_plans plan']
  obtain ⟨⟨d, weights⟩, r, generated⟩ := Generation.ok_of_run'
    (show ((generate repeatedRelu 64).run' .start).isSome = true by decide)
  have sorted : repeatedRelu.topologicalOrder = .ok [⟨0⟩, ⟨1⟩] := by decide
  obtain ⟨order, specs, found, planned, length, _, shared, names, _⟩ :=
    generate_shares separates generated
  cases sorted.symm.trans found
  have plan : ∀ s ∈ specs, s = ⟨.activation .relu, [⟨[2], .data⟩], [2], 2, 64⟩ := by
    intro s hs
    obtain ⟨o, _, plan⟩ := exists_left planned hs
    exact repeatedRelu_plans ⟨o, plan⟩
  have dispatched {k : DeviceKernel} (hk : k ∈ d.kernels) : ∃ s, (s, k) ∈ specs.zip d.kernels := by
    rw [← List.map_snd_zip (Nat.le_of_eq length.symm)] at hk
    obtain ⟨⟨s, _⟩, hp, rfl⟩ := List.mem_map.1 hk
    exact ⟨s, hp⟩
  refine ⟨separates, d, weights, r, generated, ?_, names, fun k hk k' hk' => ?_⟩
  · rw [← length, ← planned.length_eq]
    rfl
  · obtain ⟨s, hs⟩ := dispatched hk
    obtain ⟨s', hs'⟩ := dispatched hk'
    refine (shared _ hs _ hs').2 ?_
    rw [plan s (List.of_mem_zip hs).1, plan s' (List.of_mem_zip hs').1]

end TensorGraph
