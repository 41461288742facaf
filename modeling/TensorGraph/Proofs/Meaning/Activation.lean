import TensorGraph.Proofs.Evaluation.Grid
import TensorGraph.Proofs.Meaning.Refinement
import TensorGraph.Proofs.Pass.Fusion

/-!
# TensorGraph.Proofs.Meaning.Activation

An activation means the same in the slot of the operator before it.

* `compute_withActivation`: a kernel with an activation in its slot applies it to every element of
  what it computes without one.
* `Outline.Housed`: activations that went into operators which alone read their operands; the pairs
  follow from the graph before the pass, as no operator is in two of them.
* `activationFusion_means`: so the pass keeps every output exactly, for scalars of any kind, and
  what it makes of every operator can be told beforehand.
-/

namespace TensorGraph

open TensorGraph.Graph Edit Pass

variable {α : Type} [Scalar α]

/-! ## Kernels -/

namespace Kernel

omit [Scalar α] in
theorem tabulate_map {π β : Type} (positions : List π) (f : π → Option α) (h : α → β) :
    tabulate positions (fun p => (f p).map h) = (tabulate positions f).map (Array.map h) := by
  have values : positions.mapM (fun p => (f p).map h) = (positions.mapM f).map (List.map h) := by
    induction positions with
    | nil => rfl
    | cons p positions ih =>
      rw [List.mapM_cons, List.mapM_cons, ih]
      cases f p with
      | none => rfl
      | some v => cases positions.mapM f <;> rfl
  rw [tabulate, tabulate, values, Option.map_map, Option.map_map]
  exact congrArg (Option.map · _) (funext fun vs => (List.map_toArray ..).symm)

/-- An activation that every element goes through. -/
theorem tabulate_activated {π : Type} (a : Activation α) (positions : List π)
    (f : π → Option α) :
    tabulate positions (fun p => do return Activation.applyTo (some a) (← f p)) =
      (tabulate positions fun p => do return Activation.applyTo none (← f p)).map
        (pointwise a) := by
  have idle (p : π) : (do return Activation.applyTo none (← f p)) = f p := by
    cases f p <;> rfl
  have applied (p : π) : (do return Activation.applyTo (some a) (← f p)) = (f p).map a.apply := by
    cases f p <;> rfl
  simp only [idle, applied]
  exact tabulate_map positions f a.apply

theorem convolution_activated (p : Convolution α) (idle : p.activation = none)
    (a : Activation α) (x : Buffer α) (image : ImageShape) (w : Buffer α) (filter : Shape)
    (bias : Option (Buffer α)) (out : Extent) :
    convolution { p with activation := some a } x image w filter bias out =
      (convolution p x image w filter bias out).map (pointwise a) := by
  unfold convolution
  dsimp only
  cases p.layout.dims? filter with
  | none => exact congrArg some (Array.map_empty (f := a.apply)).symm
  | some dims =>
    rw [idle]
    exact tabulate_activated a _ fun (b, o, oy, ox) =>
      convolutionAt p (p.margins ⟨image.height, image.width⟩) x image w dims bias b o oy ox

theorem linear_activated (a : Activation α) (x : Buffer α) (batch features : Nat)
    (w : Buffer α) (outputs : Nat) (bias : Option (Buffer α)) :
    linear (some a) x batch features w outputs bias =
      (linear none x batch features w outputs bias).map (pointwise a) := by
  unfold linear
  dsimp only
  simp only [← bind_assoc]
  exact tabulate_activated a _ _

theorem elementwiseAdd_activated (a : Activation α) (operands : List (Buffer α)) :
    elementwiseAdd (some a) operands = (elementwiseAdd none operands).map (pointwise a) := by
  unfold elementwiseAdd
  exact tabulate_activated a _ _

theorem axiswiseAffine_activated (axis : Nat) (a : Activation α) (x : Buffer α) (shape : Shape)
    (scale bias : Buffer α) :
    axiswiseAffine axis (some a) x shape scale bias =
      (axiswiseAffine axis none x shape scale bias).map (pointwise a) := by
  have unfolded (activation : Option (Activation α)) :
      axiswiseAffine axis activation x shape scale bias = (do
        let dim ← shape[axis]?
        tabulate x.toList.zipIdx fun p => do
          return Activation.applyTo activation (← (do
            let c ← coordinate? (shape.inner axis) dim p.2
            let s ← scale[c]?
            let b ← bias[c]?
            return p.1 * s + b))) := by
    simp only [axiswiseAffine, alongAxis, bind_assoc, pure_bind]
  rw [unfolded, unfolded]
  cases shape[axis]? with
  | none => rfl
  | some dim => exact tabulate_activated a _ _

end Kernel

/-- A kernel with an activation in its slot applies it to what it computes without one. -/
theorem compute_withActivation {kind : OperatorKind α} (slot : kind.activationSlot? = some none)
    (a : Activation α) (shapes : List Shape) (out : Shape) (operands : List (Array α)) :
    (kind.withActivation a).compute shapes out operands =
      (kind.compute shapes out operands).map (Kernel.pointwise a) := by
  cases kind with
  | convolution p =>
    have idle : p.activation = none := Option.some.inj slot
    rcases shapes with _ | ⟨xs, _ | ⟨ws, shapes⟩⟩
    · rfl
    · rfl
    · rcases operands with _ | ⟨x, _ | ⟨w, rest⟩⟩
      · rfl
      · rfl
      · simp only [OperatorKind.withActivation, OperatorKind.compute]
        cases ImageShape.ofShape? xs with
        | none => rfl
        | some image =>
          cases ImageShape.ofShape? out with
          | none => rfl
          | some result => exact Kernel.convolution_activated p idle a x image w ws rest.head? _
  | linear fused =>
    cases Option.some.inj slot
    -- Only a batch, a matrix of weights and buffers for both have a value at all.
    rcases shapes with _ | ⟨_ | ⟨batch, _⟩, _ | ⟨_ | ⟨outputs, _ | ⟨features, _ | _⟩⟩, _⟩⟩ <;>
      try rfl
    rcases operands with _ | ⟨x, _ | ⟨w, rest⟩⟩
    · rfl
    · rfl
    · exact Kernel.linear_activated a x batch features w outputs rest.head?
  | elementwiseAdd fused =>
    cases Option.some.inj slot
    exact Kernel.elementwiseAdd_activated a operands
  | axiswiseAffine axis fused =>
    cases Option.some.inj slot
    rcases shapes with _ | ⟨xs, _⟩
    · rfl
    · rcases operands with _ | ⟨x, _ | ⟨scale, _ | ⟨bias, _ | _⟩⟩⟩ <;> try rfl
      exact Kernel.axiswiseAffine_activated axis a x xs scale bias
  | _ => cases slot

/-! ## Changes -/

variable {g : Graph α} {rank : OperatorId → Nat} {O' : Outline α} {o p : OperatorId}
  {producer op fused : Operator α} {v w : VariableId} {a : Activation α}

/-- The two operators of a change are joined by the only value between them. -/
theorem Collapse.activation_link (linked : g.Linked) (sound : g.outline.Sound rank)
    (collapse : Collapse rank g.outline O' p o [o] fused w) (lt : rank p < rank o)
    (hp : g.operatorAt? p = some producer) (ho : g.operatorAt? o = some op)
    (kind : op.kind = .activation a) : ∃ v, g.outline.Link v p o ∧ producer.outputs = [v] ∧
      op.inputs = [v] ∧ op.outputs = [w] ∧ g.outline.shape v = g.outline.shape w := by
  obtain ⟨x, w', inputs, outputs, shape⟩ := sound.unary .ok ho fun _ => by rw [kind]; rfl
  cases outputs.symm.trans (collapse.last_outputs sound ho)
  have ne : p ≠ o := fun e => Nat.lt_irrefl _ (e ▸ lt)
  obtain ⟨v, written, _, link⟩ := collapse.pair_link linked sound ne hp ho fun u hu _ => by
    rw [inputs] at hu ⊢
    rw [List.mem_singleton.1 hu]
    exact List.count_singleton_self
  cases link.eq_input ho inputs
  exact ⟨x, link, written, inputs, outputs, Except.ok.inj shape⟩

theorem ActivationChange.refines (linked : g.Linked) (sound : g.outline.Sound rank)
    (change : ActivationChange rank g.outline o O') : g.outline.Refines O' := by
  obtain ⟨p, producer, fused, w, a, hp, collapse, slot, kind', inputs', lt, op, ho, kind⟩ := change
  obtain ⟨v, _, written, inputs, outputs, shape⟩ :=
    collapse.activation_link linked sound lt hp ho kind
  refine collapse.refines linked fun φ _ _ computes => ?_
  have first := computes p List.mem_cons_self producer hp v written
  have second := computes o (List.mem_cons_of_mem p List.mem_cons_self) op ho w outputs
  rw [kind, inputs] at second
  have value : Kernel.pointwise a (φ v) = φ w := Option.some.inj second
  have shapes : producer.inputs.map O'.shape = producer.inputs.map g.outline.shape :=
    List.map_congr_left fun u hu => collapse.shape_eq (linked.input_live ⟨producer, hp, hu⟩)
  rw [kind', inputs', shapes, compute_withActivation slot, ← shape, first, Option.map_some, value]

/-! ## Which operators become one -/

/-- `o` is the activation `a`, which alone reads the result of `p`, and the slot of `p` is empty. -/
structure Outline.Hosts (O : Outline α) (p o : OperatorId) (producer op : Operator α)
    (a : Activation α) : Prop where
  host : O.operators p = some producer
  guest : O.operators o = some op
  kind : op.kind = .activation a
  slot : producer.kind.activationSlot? = some none
  link : ∃ v, O.Link v p o

/-- `p` has taken up `o`. -/
inductive Outline.Hosted (O O' : Outline α) (p o : OperatorId) : Prop
  | intro {producer op fused : Operator α} {a : Activation α} (hosts : O.Hosts p o producer op a)
      (host : O'.operators p = some fused) (guest : O'.operators o = none)
      (kind : fused.kind = producer.kind.withActivation a) (inputs : fused.inputs = producer.inputs)
      (outputs : fused.outputs = op.outputs)

/-- Some operators have taken up those that they host, and all others are as they were. -/
structure Outline.Housed (O O' : Outline α) : Prop where
  outputs : O'.outputs = O.outputs
  each : ∀ q, O'.operators q = O.operators q ∨ ∃ p o, (q = p ∨ q = o) ∧ O.Hosted O' p o

namespace Outline

section

variable {O O' : Outline α} {p p' o o' c : OperatorId} {producer producer' op op' : Operator α}
  {a a' : Activation α} {v : VariableId}

omit [Scalar α] in
theorem activationSlot?_withActivation {kind : OperatorKind α}
    (slot : kind.activationSlot? = some none) (a : Activation α) :
    (kind.withActivation a).activationSlot? = some (some a) := by
  cases kind <;> first | rfl | cases slot

omit [Scalar α] in
/-- An operator that is taken up hosts no other one. -/
theorem Hosts.apart (h : O.Hosts p o producer op a) (h' : O.Hosts p' o' producer' op' a') :
    p ≠ o' := by
  rintro rfl
  cases h.host.symm.trans h'.guest
  have slot := h.slot
  rw [h'.kind] at slot
  cases slot

theorem Hosts.inputs (sound : O.Sound rank) (h : O.Hosts p o producer op a)
    (link : O.Link v p o) : op.inputs = [v] := by
  obtain ⟨x, _, inputs, _⟩ := sound.unary .ok h.guest fun _ => by rw [h.kind]; rfl
  rw [inputs, link.eq_input h.guest inputs]

theorem Hosts.guest_eq (sound : O.Sound rank) (h : O.Hosts p o producer op a)
    (h' : O.Hosts p o' producer' op' a') : o = o' := by
  obtain ⟨v, link⟩ := h.link
  obtain ⟨v', link'⟩ := h'.link
  obtain ⟨u, outputs, _⟩ := sound.result h.host
  cases link.eq_output h.host outputs
  cases link'.eq_output h.host outputs
  exact link'.once.2 o link.once.reads

theorem Hosts.host_eq {g : Graph α} (linked : g.Linked) (sound : g.outline.Sound rank)
    (h : g.outline.Hosts p o producer op a) (h' : g.outline.Hosts p' o producer' op' a') :
    p = p' := by
  obtain ⟨v, link⟩ := h.link
  obtain ⟨v', link'⟩ := h'.link
  have same : v' = v := link'.eq_input h.guest (h.inputs sound link)
  exact linked.writer_unique link.writes (same ▸ link'.writes)

omit [Scalar α] in
/-- An operator that can still take up an activation has not taken up one. -/
theorem Housed.host (h : O.Housed O') (hp : O'.operators p = some producer)
    (slot : producer.kind.activationSlot? = some none) : O.operators p = some producer := by
  rcases h.each p with same | ⟨q, r, rfl | rfl, hosts, host, guest, kind, _⟩
  · rw [← same, hp]
  · cases host.symm.trans hp
    rw [kind, activationSlot?_withActivation hosts.slot] at slot
    cases slot
  · cases guest.symm.trans hp

omit [Scalar α] in
theorem Housed.guest (h : O.Housed O') (ho : O'.operators o = some op)
    (kind : op.kind = .activation a) : O.operators o = some op := by
  rcases h.each o with same | ⟨q, r, rfl | rfl, hosts, host, guest, kind', _⟩
  · rw [← same, ho]
  · cases host.symm.trans ho
    exact absurd (kind'.symm.trans kind) (withActivation_ne_activation hosts.slot _ a)
  · cases guest.symm.trans ho

omit [Scalar α] in
/-- Operators read what they read before. -/
theorem Housed.reads_of (h : O.Housed O') (read : O'.Reads c v) : O.Reads c v := by
  obtain ⟨opc, hc, hv⟩ := read
  rcases h.each c with same | ⟨q, r, rfl | rfl, hosts, host, guest, _, inputs, _⟩
  · exact ⟨opc, same ▸ hc, hv⟩
  · cases host.symm.trans hc
    exact ⟨_, hosts.host, inputs ▸ hv⟩
  · cases guest.symm.trans hc

/-- A value is still read by its readers, but for those that were taken up. -/
theorem Housed.reads (sound : O.Sound rank) (h : O.Housed O') (read : O.Reads c v) :
    O'.Reads c v ∨ ∃ p, O.Hosted O' p c ∧ O.Link v p c := by
  obtain ⟨opc, hc, hv⟩ := read
  rcases h.each c with same | ⟨q, r, rfl | rfl, hosted⟩
  · exact .inl ⟨opc, same.trans hc, hv⟩
  · obtain ⟨hosts, host, _, _, inputs, _⟩ := hosted
    cases hosts.host.symm.trans hc
    exact .inl ⟨_, host, inputs ▸ hv⟩
  · obtain ⟨hosts, _⟩ := id hosted
    obtain ⟨u, link⟩ := hosts.link
    cases hosts.guest.symm.trans hc
    rw [hosts.inputs sound link, List.mem_singleton] at hv
    exact .inr ⟨q, hosted, hv ▸ link⟩

omit [Scalar α] in
theorem housed_refl (O : Outline α) : O.Housed O := ⟨rfl, fun _ => .inl rfl⟩

omit [Scalar α] in
theorem Housed.pruned (h : O.Housed O') : O.Housed O'.pruned :=
  ⟨h.outputs, fun q => (h.each q).imp_right fun ⟨p, o, hq, hosted⟩ => ⟨p, o, hq, by
    obtain ⟨hosts, host, guest, kind, inputs, outputs⟩ := hosted
    exact ⟨hosts, host, guest, kind, inputs, outputs⟩⟩⟩

/-- What joins two operators joined them before, as those that were taken up read nothing else. -/
theorem Housed.hosts (sound : O.Sound rank) (h : O.Housed O')
    (hosts : O'.Hosts p o producer op a) : O.Hosts p o producer op a := by
  have host := h.host hosts.host hosts.slot
  have guest := h.guest hosts.guest hosts.kind
  obtain ⟨v, link⟩ := hosts.link
  have written : v ∈ producer.outputs := (writes_iff hosts.host).1 link.writes
  obtain ⟨⟨_, ho, count⟩, alone⟩ := link.once
  cases hosts.guest.symm.trans ho
  refine ⟨host, guest, hosts.kind, hosts.slot, v, ⟨producer, host, written⟩,
    ⟨⟨op, guest, count⟩, fun c read => ?_⟩, h.outputs ▸ link.inner⟩
  rcases h.reads sound read with read | ⟨q, ⟨_, _, gone, _⟩, earlier⟩
  · exact alone c read
  · -- A reader that was taken up was the only one.
    cases earlier.once.2 o ⟨op, guest, List.count_pos_iff.1 (by omega)⟩
    cases gone.symm.trans hosts.guest

/-- One more operator is taken up. -/
theorem Housed.step (sound : O.Sound rank) (h : O.Housed O') {O'' : Outline α}
    {fused : Operator α} (hosts : O'.Hosts p o producer op a) (outputs : O''.outputs = O'.outputs)
    (host : O''.operators p = some fused) (guest : O''.operators o = none)
    (kind : fused.kind = producer.kind.withActivation a) (inputs : fused.inputs = producer.inputs)
    (results : fused.outputs = op.outputs)
    (others : ∀ q, q ∉ [p, o] → O''.operators q = O'.operators q) : O.Housed O'' where
  outputs := outputs.trans h.outputs
  each q := by
    have pair := h.hosts sound hosts
    by_cases hq : q ∈ [p, o]
    · exact .inr ⟨p, o, by simpa using hq, pair, host, guest, kind, inputs, results⟩
    · rw [others q hq]
      refine (h.each q).imp_right fun ⟨p', o', hq, earlier⟩ => ⟨p', o', hq, ?_⟩
      obtain ⟨hosts', host', guest', kind', inputs', results'⟩ := earlier
      -- The operators of an earlier pair are not those of the new one.
      have apart_host : p' ∉ [p, o] := by
        intro mem
        rcases List.mem_pair.1 mem with rfl | rfl
        · cases host'.symm.trans hosts.host
          have := hosts.slot
          rw [kind', activationSlot?_withActivation hosts'.slot] at this
          cases this
        · exact hosts'.apart pair rfl
      have apart_guest : o' ∉ [p, o] := by
        intro mem
        rcases List.mem_pair.1 mem with rfl | rfl
        · cases guest'.symm.trans hosts.host
        · cases guest'.symm.trans hosts.guest
      exact ⟨hosts', (others p' apart_host).trans host', (others o' apart_guest).trans guest',
        kind', inputs', results'⟩

end

end Outline

theorem ActivationChange.hosts (linked : g.Linked) (sound : g.outline.Sound rank)
    (change : ActivationChange rank g.outline o O') {O : Outline α} {first : OperatorId → Nat}
    (start : O.Sound first) (housed : O.Housed g.outline) : O.Housed O' := by
  obtain ⟨p, producer, fused, w, a, hp, collapse, slot, kind', inputs', lt, op, ho, kind⟩ := change
  obtain ⟨v, link, _, _, outputs, _⟩ := collapse.activation_link linked sound lt hp ho kind
  exact housed.step start ⟨hp, ho, kind, slot, v, link⟩ collapse.outputs collapse.operators_host
    (collapse.operators_gone o List.mem_cons_self) kind' inputs'
    (collapse.outputs_eq.trans outputs.symm) collapse.operators_other

/-- Where nothing is left to do, every operator that can be taken up has been. -/
theorem Outline.Housed.settled {g : Graph α} {O' : Outline α} (linked : g.Linked)
    (sound : g.outline.Sound rank) (h : g.outline.Housed O') (quiet : ∀ q, ActivationQuiet O' q)
    (hosts : g.outline.Hosts p o producer op a) : g.outline.Hosted O' p o := by
  rcases h.each p with host | ⟨p', o', rfl | rfl, hosted⟩
  · rcases h.each o with guest | ⟨p', o', rfl | rfl, hosted⟩
    · -- Both are as they were, and so still joined.
      obtain ⟨v, link⟩ := hosts.link
      obtain ⟨⟨_, ho, count⟩, alone⟩ := link.once
      refine absurd ⟨⟨a, hosts.kind⟩, hosts.slot⟩ (quiet o v p producer op ⟨⟨producer, ?_, ?_⟩,
        ⟨⟨op, guest.trans hosts.guest, ?_⟩, fun c read => alone c (h.reads_of read)⟩, ?_⟩
        (host.trans hosts.host) (guest.trans hosts.guest))
      · exact host.trans hosts.host
      · exact (writes_iff hosts.host).1 link.writes
      · cases hosts.guest.symm.trans ho
        exact count
      · rw [h.outputs]
        exact link.inner
    · obtain ⟨hosts', _⟩ := id hosted
      exact absurd rfl (hosts'.apart hosts)
    · obtain ⟨hosts', _⟩ := id hosted
      exact hosts.host_eq linked sound hosts' ▸ hosted
  · obtain ⟨hosts', _⟩ := id hosted
    exact hosts.guest_eq sound hosts' ▸ hosted
  · obtain ⟨hosts', _⟩ := id hosted
    exact absurd rfl (hosts.apart hosts')

omit [Scalar α] in
theorem Outline.Hosted.host_eq {O : Outline α} {g' : Graph α} (linked : g'.Linked)
    (same : ∀ {op}, O.operators p = some op → op.id = p)
    (h : O.Hosted g'.outline p o) (hosts : O.Hosts p o producer op a) :
    g'.operatorAt? p =
      some { producer with kind := producer.kind.withActivation a, outputs := op.outputs } := by
  obtain @⟨_, _, fused, _, hosts', host, _, kind, inputs, outputs⟩ := h
  cases hosts.host.symm.trans hosts'.host
  cases hosts.guest.symm.trans hosts'.guest
  cases hosts.kind.symm.trans hosts'.kind
  refine host.trans (congrArg some ?_)
  have id : fused.id = producer.id := (linked.operator_id host).trans (same hosts.host).symm
  obtain ⟨_, _, _, _⟩ := fused
  cases id
  cases kind
  cases inputs
  cases outputs
  rfl

/-- A value that two operators read, or one of them twice. -/
def Graph.ReadTwice (g : Graph α) (v : VariableId) : Prop :=
  (∃ c d, c ≠ d ∧ 0 < g.uses c v ∧ 0 < g.uses d v) ∨ ∃ c, 2 ≤ g.uses c v

omit [Scalar α] in
theorem Graph.reads_of_uses {c : OperatorId} (h : 0 < g.uses c v) : g.outline.Reads c v := by
  cases hc : g.operatorAt? c with
  | none => simp [uses, hc] at h
  | some op =>
    rw [uses_of hc] at h
    exact ⟨op, hc, List.count_pos_iff.1 h⟩

omit [Scalar α] in
theorem Outline.Once.not_readTwice (h : g.outline.Once v o) : ¬g.ReadTwice v := by
  obtain ⟨⟨op, ho, count⟩, alone⟩ := h
  rintro (⟨c, d, ne, hc, hd⟩ | ⟨c, hc⟩)
  · exact ne ((alone c (reads_of_uses hc)).trans (alone d (reads_of_uses hd)).symm)
  · cases alone c (reads_of_uses (by omega))
    rw [uses_of ho, count] at hc
    omega

/-- Taking up activations succeeds on every checked graph and keeps every output exactly, whatever
the operations on scalars are. Then no activation is left that alone reads the result of an
operator with an empty slot. An operator takes up an activation exactly if its slot was empty and
the activation alone read its result, once; an operator that already carries one stays as it is,
and so do the operands of the readers of an output and of a value that is read more than once. -/
theorem Graph.activationFusion_means {g : Graph α} (h : g.Checked) :
    ∃ report g', activationFusion.run g = .ok report g' ∧
      (∀ inputs, g.Fits inputs →
        ∃ outputs, g.evaluate inputs = .ok outputs ∧ g'.evaluate inputs = .ok outputs) ∧
      (∀ v p o producer reader, g'.producer? v = some p → g'.singleUseConsumer? v = some o →
        g'.operatorAt? p = some producer → g'.operatorAt? o = some reader →
        producer.kind.activationSlot? = some none → ∀ a, reader.kind ≠ .activation a) ∧
      (∀ p o producer op a, g.outline.Hosts p o producer op a → g'.operatorAt? o = none ∧
        g'.operatorAt? p =
          some { producer with kind := producer.kind.withActivation a, outputs := op.outputs }) ∧
      (∀ q, (∀ p o producer op a, g.outline.Hosts p o producer op a → q ≠ p ∧ q ≠ o) →
        g'.operatorAt? q = g.operatorAt? q) ∧
      (∀ p producer, g.operatorAt? p = some producer → producer.kind.fused? ≠ none →
        g'.operatorAt? p = some producer) ∧
      ∀ v, v ∈ g.outputs ∨ g.ReadTwice v → ∀ o op, g.operatorAt? o = some op → v ∈ op.inputs →
        ∃ op', g'.operatorAt? o = some op' ∧ op'.inputs = op.inputs := by
  obtain ⟨report, g', run, swept, _⟩ := sweep_run fuseActivationStep_rule h.tidy
  have linked := h.tidy.linked
  obtain ⟨rank, sound⟩ := h.tidy.sound
  have housed : g.outline.Housed g'.outline := swept.stable g.outline.Housed
    (fun linked' sound' change before => change.hosts linked' sound' sound before)
    (fun _ before => before.pruned) (Outline.housed_refl _)
  have untouched (q : OperatorId) (alone : ∀ p o producer op a,
      g.outline.Hosts p o producer op a → q ≠ p ∧ q ≠ o) : g'.operatorAt? q = g.operatorAt? q := by
    rcases housed.each q with same | ⟨p, o, hq, hosts, _⟩
    · exact same
    · obtain ⟨first, second⟩ := alone p o _ _ _ hosts
      exact absurd hq (by simp [first, second])
  refine ⟨report, g', run, swept.evaluate h.tidy (swept.refines ActivationChange.refines),
    fun v p o producer reader produced single hp ho slot a kind => ?_,
    fun p o producer op a hosts => ?_, untouched, fun p producer hp carries => ?_,
    fun v kept o op ho read => ?_⟩
  · obtain ⟨once, inner⟩ := (singleUseConsumer?_iff swept.tidy.linked).1 single
    exact swept.quiet o v p producer reader
      ⟨(producer?_iff swept.tidy.linked).1 produced, once, inner⟩ hp ho ⟨⟨a, kind⟩, slot⟩
  · have hosted := housed.settled linked sound swept.quiet hosts
    obtain ⟨_, _, guest, _⟩ := id hosted
    exact ⟨guest, hosted.host_eq swept.tidy.linked linked.operator_id hosts⟩
  · rw [untouched p fun q r _ _ _ hosts => ⟨?_, ?_⟩, hp]
    · rintro rfl
      cases hosts.host.symm.trans hp
      exact carries (by rw [OperatorKind.fused?, hosts.slot]; rfl)
    · rintro rfl
      cases hosts.guest.symm.trans hp
      exact carries (by rw [hosts.kind]; rfl)
  · rcases housed.reads sound ⟨op, ho, read⟩ with still | ⟨p, _, link⟩
    · rcases housed.each o with same | ⟨p, q, rfl | rfl, hosts, host, guest, _, inputs, _⟩
      · exact ⟨op, same.trans ho, rfl⟩
      · cases hosts.host.symm.trans ho
        exact ⟨_, host, inputs⟩
      · obtain ⟨_, ho', _⟩ := still
        cases guest.symm.trans ho'
    · rcases kept with out | twice
      · exact absurd out link.inner
      · exact absurd twice link.once.not_readTwice

/-- A sum that takes up an activation, another activation behind it, a sum that is read twice, and
one that is an output of the graph. -/
def Graph.activatedSums : Graph Binary32 :=
  afterCalls .empty
    [.addVariable "x" [2], .addVariable "s" [2], .addVariable "r" [2], .addVariable "t" [2],
      .addVariable "u" [2], .addVariable "v" [2], .addVariable "w" [2], .addVariable "z" [2],
      .addOperator (.elementwiseAdd none) [⟨0⟩, ⟨0⟩] [⟨1⟩],
      .addOperator (.activation .relu) [⟨1⟩] [⟨2⟩], .addOperator (.activation .tanh) [⟨2⟩] [⟨3⟩],
      .addOperator (.elementwiseAdd none) [⟨0⟩, ⟨3⟩] [⟨4⟩],
      .addOperator (.activation .sigmoid) [⟨4⟩] [⟨5⟩],
      .addOperator (.elementwiseAdd none) [⟨4⟩, ⟨5⟩] [⟨6⟩],
      .addOperator (.activation .relu) [⟨6⟩] [⟨7⟩],
      .designateInputs [⟨0⟩], .designateOutputs [⟨6⟩, ⟨7⟩]]

theorem Graph.activatedSums_checked : activatedSums.Checked where
  reachable := Reachable.empty.afterCalls _
  valid := by decide
  inputs_free := by decide

set_option maxRecDepth 1000 in
theorem Graph.activationFusion_means_activatedSums : activatedSums.Checked ∧
    activatedSums.Fits [#[1, -2]] ∧ ⟨6⟩ ∈ activatedSums.outputs ∧ activatedSums.ReadTwice ⟨4⟩ ∧
      (∃ producer op, activatedSums.outline.Hosts ⟨0⟩ ⟨1⟩ producer op .relu) ∧
      ∃ report g' outputs, activationFusion.run activatedSums = .ok report g' ∧
        activatedSums.evaluate [#[1, -2]] = .ok outputs ∧ g'.evaluate [#[1, -2]] = .ok outputs ∧
        g'.operatorAt? ⟨1⟩ = none ∧ (g'.operatorAt? ⟨4⟩).map Operator.inputs = some [⟨4⟩] ∧
        (g'.operatorAt? ⟨6⟩).map Operator.inputs = some [⟨6⟩] := by
  have fits : activatedSums.Fits [#[1, -2]] := by
    show _ = _
    decide
  have out : ⟨6⟩ ∈ activatedSums.outputs := by decide
  have twice : activatedSums.ReadTwice ⟨4⟩ :=
    .inl ⟨⟨4⟩, ⟨5⟩, by decide, by decide, by decide⟩
  have hosts : activatedSums.outline.Hosts ⟨0⟩ ⟨1⟩
      ⟨⟨0⟩, .elementwiseAdd none, [⟨0⟩, ⟨0⟩], [⟨1⟩]⟩ ⟨⟨1⟩, .activation .relu, [⟨1⟩], [⟨2⟩]⟩ .relu :=
    { host := rfl
      guest := rfl
      kind := rfl
      slot := rfl
      link := ⟨⟨1⟩, (fusibleProducer?_iff activatedSums_checked.tidy.linked).1
        (by decide)⟩ }
  obtain ⟨report, g', run, same, _, taken, _, _, kept⟩ :=
    activationFusion_means activatedSums_checked
  obtain ⟨outputs, before, after⟩ := same _ fits
  obtain ⟨reader, hreader, inputs⟩ := kept ⟨4⟩ (.inr twice) ⟨4⟩
    ⟨⟨4⟩, .activation .sigmoid, [⟨4⟩], [⟨5⟩]⟩ rfl List.mem_cons_self
  obtain ⟨last, hlast, inputs'⟩ := kept ⟨6⟩ (.inl out) ⟨6⟩
    ⟨⟨6⟩, .activation .relu, [⟨6⟩], [⟨7⟩]⟩ rfl List.mem_cons_self
  exact ⟨activatedSums_checked, fits, out, twice, ⟨_, _, hosts⟩, report, g', outputs, run, before,
    after, (taken _ _ _ _ _ hosts).1, by rw [hreader, Option.map_some, inputs],
    by rw [hlast, Option.map_some, inputs']⟩

end TensorGraph
