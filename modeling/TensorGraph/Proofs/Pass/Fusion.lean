import TensorGraph.Pass.Fusion
import TensorGraph.Proofs.Edit.Operators
import TensorGraph.Proofs.Evaluation.Kernel
import TensorGraph.Proofs.Pass.Sweep

/-!
# TensorGraph.Proofs.Pass.Fusion

Operators that go into their producer.

* `absorb_yields`: the producer writes the result of the operator that it takes up.
* `fuseActivationStep_rule`: after a step no activation is left that its producer could take up.
* `fuseAffineStep_rule`: the same for a constant scale and shift per channel.
-/

namespace TensorGraph

variable {α : Type}

open TensorGraph.Graph Edit Pass

variable {g : Graph α} {rank : OperatorId → Nat} {o p : OperatorId} {op producer : Operator α}
  {v w : VariableId}

theorem absorb_yields (h : g.Linked) (hp : g.operatorAt? p = some producer)
    (ho : g.operatorAt? o = some op) (ne : p ≠ o) {rest : List VariableId}
    (inputs : op.inputs = v :: rest) (outputs : op.outputs = [w])
    (producerOutputs : producer.outputs = [v]) :
    Yields (Edit.absorb p o) g ⟨⟩
      ((g.outline.setOperator o none).setOperator p (some { producer with outputs := [w] })) := by
  refine (removeOperator_yields h ho).bind fun g₁ h₁ e₁ => ?_
  have hp₁ : g₁.operatorAt? p = some producer := by
    rw [← outline_operators, e₁]; simp [ne, hp]
  have live : g₁.outline.Live w := by
    rw [e₁]
    exact h.output_live ⟨op, ho, by rw [outputs]; exact List.mem_singleton.2 rfl⟩
  -- Only `o` wrote its result, and `o` is gone.
  have free : ∀ q, ¬g₁.outline.Writes q w := by
    rintro q ⟨op', hq, hw⟩
    rw [e₁, Outline.setOperator_operators] at hq
    split at hq
    · cases hq
    · next other =>
      refine other (h.writer_unique ⟨op', hq, hw⟩ ⟨op, ho, ?_⟩)
      rw [outputs]
      exact List.mem_singleton.2 rfl
  have mem : v ∈ producer.outputs := by rw [producerOutputs]; exact List.mem_singleton.2 rfl
  have rebound := rebindOutput_yields h₁ hp₁ live mem free
  rw [producerOutputs, e₁] at rebound
  simp only [inputs, outputs]
  simpa [replaceFirst] using rebound

/-! ## Activations -/

/-- A standalone activation after an operator whose slot for one is empty. -/
def ActivationPattern (_ : Outline α) (producer reader : Operator α) : Prop :=
  (∃ a, reader.kind = .activation a) ∧ producer.kind.activationSlot? = some none

abbrev ActivationQuiet (O : Outline α) (q : OperatorId) : Prop := O.Unlinked ActivationPattern q

variable [Scalar α]

/-- The activation `o` goes into its producer `p`. -/
def ActivationChange (rank : OperatorId → Nat) (O : Outline α) (o : OperatorId) (O' : Outline α) :
    Prop :=
  ∃ p producer fused w a, O.operators p = some producer ∧ Collapse rank O O' p o [o] fused w ∧
    producer.kind.activationSlot? = some none ∧ fused.kind = producer.kind.withActivation a ∧
    fused.inputs = producer.inputs ∧ rank p < rank o ∧
    ∃ op, O.operators o = some op ∧ op.kind = .activation a

omit [Scalar α] in
theorem standalone?_eq_some {kind : OperatorKind α} {a : Activation α} :
    kind.standalone? = some a ↔ kind = .activation a := by
  cases kind <;> simp [OperatorKind.standalone?]

omit [Scalar α] in
theorem activationHost?_iff (h : g.Linked) (ho : g.operatorAt? o = some op) :
    activationHost? g op = some producer ↔ ∃ v p, op.input? = some v ∧ g.outline.Link v p o ∧
      g.operatorAt? p = some producer ∧ producer.kind.activationSlot? = some none := by
  have id : op.id = o := h.operator_id ho
  simp only [activationHost?, id, Option.bind_eq_bind, Option.bind_eq_some_iff]
  constructor
  · rintro ⟨v, hv, producer', ⟨p, fusible, hp⟩, found⟩
    split at found
    · next slot =>
      cases found
      exact ⟨v, p, hv, (fusibleProducer?_iff h).1 fusible, hp, slot⟩
    · cases found
  · rintro ⟨v, p, hv, link, hp, slot⟩
    exact ⟨v, hv, producer, ⟨p, (fusibleProducer?_iff h).2 link, hp⟩, by rw [slot]⟩

theorem fuseActivation_change (h : g.Linked) (sound : g.outline.Sound rank)
    (ho : g.operatorAt? o = some op) {a : Activation α} (kind : op.kind = .activation a)
    (link : g.outline.Link v p o) (hp : g.operatorAt? p = some producer)
    (slot : producer.kind.activationSlot? = some none) (report : PassReport) :
    ∃ O', Yields (do
      Edit.setKind producer.id (producer.kind.withActivation a)
      Edit.absorb producer.id op.id
      return report.record 1) g (report.record 1) O' ∧ ActivationChange rank g.outline o O' := by
  obtain ⟨x, w, inputs, outputs, shape⟩ := sound.unary .ok ho fun _ => by rw [kind]; rfl
  obtain ⟨u, producerOutputs, typed⟩ := sound.result hp
  cases link.eq_input ho inputs
  cases link.eq_output hp producerOutputs
  have ne := link.ne sound
  let kinded : Operator α := { producer with kind := producer.kind.withActivation a }
  let fused : Operator α := { kinded with outputs := [w] }
  refine ⟨(g.outline.setOperator o none).setOperator p (some fused), ?_, p, producer, fused, w, a,
    hp, ?_, slot, rfl, rfl, link.lt sound, op, ho, kind⟩
  · rw [h.operator_id hp, h.operator_id ho]
    refine (setKind_yields h hp _).bind fun g₁ h₁ e₁ => ?_
    have hp₁ : g₁.operatorAt? p = some kinded := by
      rw [← outline_operators, e₁]; simp [kinded]
    have ho₁ : g₁.operatorAt? o = some op := by
      rw [← outline_operators, e₁]; simp [ne.symm, ho]
    refine (absorb_yields h₁ hp₁ ho₁ ne inputs outputs producerOutputs).bind fun g₂ h₂ e₂ =>
      ⟨g₂, rfl, h₂, ?_⟩
    rw [e₂, e₁, Outline.setOperator_comm _ ne, Outline.setOperator_setOperator]
  · refine collapse_link sound link hp ho (.inr ⟨rfl, rfl⟩)
      ((extends_refl sound.positive).splice_two hp ho ne) rfl outputs ?_ (fun u hu => .inr hu)
      (fun u hu _ => hu) (fun u hu => .inl ?_) fun u _ _ count => count
    · rw [← Except.ok.inj shape]
      exact (outputShape_withActivation a _ _).trans typed
    · rw [inputs] at hu
      exact List.mem_singleton.1 hu

omit [Scalar α] in
theorem fuseActivationStep_idle (h : g.Linked) (ho : g.operatorAt? o = some op)
    (quiet : ActivationQuiet g.outline o) (report : PassReport) :
    fuseActivationStep op report g = .ok report g := by
  unfold fuseActivationStep
  cases standalone : op.kind.standalone? with
  | none => rfl
  | some a =>
    have kind := standalone?_eq_some.1 standalone
    dsimp only
    rw [run_bind_ok (run_get g)]
    cases host : activationHost? g op with
    | none => rfl
    | some producer =>
      obtain ⟨v, p, _, link, hp, slot⟩ := (activationHost?_iff h ho).1 host
      exact absurd ⟨⟨a, kind⟩, slot⟩ (quiet v p producer op link hp ho)

theorem fuseActivationStep_outcome (h : g.Linked) (sound : g.outline.Sound rank)
    (ho : g.operatorAt? o = some op) (report : PassReport) :
    ActivationQuiet g.outline o ∨ ∃ report' O', report'.changed = true ∧
      Yields (fuseActivationStep op report) g report' O' ∧
        ActivationChange rank g.outline o O' := by
  by_cases quiet : ActivationQuiet g.outline o
  · exact .inl quiet
  refine .inr ?_
  simp only [Outline.Unlinked, not_forall, not_not] at quiet
  obtain ⟨v, p, producer, op', link, hp, ho', ⟨a, kind⟩, slot⟩ := quiet
  cases ho.symm.trans ho'
  obtain ⟨x, w, inputs, _⟩ := sound.unary .ok ho fun _ => by rw [kind]; rfl
  have input : op.input? = some v := by
    rw [Operator.input?, inputs, link.eq_input ho inputs]
    rfl
  have host := (activationHost?_iff h ho).2 ⟨v, p, input, link, hp, slot⟩
  obtain ⟨O', ⟨g', run, rest⟩, change⟩ :=
    fuseActivation_change h sound ho kind link hp slot report
  refine ⟨report.record 1, O', rfl, ⟨g', ?_, rest⟩, change⟩
  rw [fuseActivationStep, standalone?_eq_some.2 kind]
  dsimp only
  rw [run_bind_ok (run_get g), host]
  exact run

omit [Scalar α] in
theorem withActivation_ne_activation {kind : OperatorKind α}
    (slot : kind.activationSlot? = some none) (a b : Activation α) :
    kind.withActivation a ≠ .activation b := by
  cases kind <;> simp [OperatorKind.activationSlot?] at slot <;>
    simp [OperatorKind.withActivation]

theorem ActivationChange.settles (h : g.Linked) (sound : g.outline.Sound rank) {O' : Outline α}
    (change : ActivationChange rank g.outline o O')
    (before : ∀ q, rank q < rank o → ActivationQuiet g.outline q) (q : OperatorId)
    (hq : rank q < rank o ∨ q = o) : ActivationQuiet O' q := by
  obtain ⟨p, producer, fused, w, a, hp, collapse, slot, kind, _⟩ := change
  rcases hq with lt | rfl
  · by_cases e : q = p
    · subst e
      refine collapse.unlinked_host h sound fun _ _ _ _ _ _ _ _ _ _ _ bad => ?_
      obtain ⟨⟨b, fusedKind⟩, _⟩ := bad
      rw [kind] at fusedKind
      exact withActivation_ne_activation slot a b fusedKind
    · have ne : q ≠ o := fun e => Nat.lt_irrefl _ (e ▸ lt)
      refine collapse.unlinked_other h sound (by simp [e, ne]) (fun _ _ _ _ _ bad => bad)
        (fun _ _ read _ _ _ => ?_) (before q lt)
      exact absurd read (sound.not_reads collapse.last_writes (Nat.le_of_lt lt))
  · exact Outline.unlinked_dead (collapse.operators_gone q List.mem_cons_self)

theorem fuseActivationStep_rule :
    StepRule (α := α) fuseActivationStep ActivationQuiet ActivationChange where
  dead := Outline.unlinked_dead
  pruned quiet := quiet.pruned fun _ _ bad => bad
  idle report h _ ho quiet := fuseActivationStep_idle h ho quiet report
  outcome report h sound ho := fuseActivationStep_outcome h sound ho report
  sound h sound change := by
    obtain ⟨_, _, _, _, _, _, collapse, _⟩ := change
    exact collapse.sound h sound
  keeps h sound change := by
    obtain ⟨_, _, _, _, _, _, collapse, _⟩ := change
    exact collapse.keeps h
  settles h sound change := change.settles h sound

/-! ## Scale and shift per channel -/

/-- A scale and a shift of channels, both constant, after a convolution or linear operator without
activation and with constant weights. -/
def AffinePattern (O : Outline α) (producer reader : Operator α) : Prop :=
  (∃ fused, reader.kind = .axiswiseAffine 1 fused) ∧ absorbsAffine producer.kind = true ∧
    (∀ u ∈ reader.inputs.tail, O.payload? u ≠ none) ∧
    ∀ u ∈ producer.inputs.tail, O.payload? u ≠ none

abbrev AffineQuiet (O : Outline α) (q : OperatorId) : Prop := O.Unlinked AffinePattern q

/-- The kind of the producer with the activation that it takes up. -/
def fusedKind (kind : OperatorKind α) : Option (Activation α) → OperatorKind α
  | some a => kind.withActivation a
  | none => kind

/-- Input, constant weights and constant bias of a producer, zeros where it has no bias. -/
inductive Weighted (O : Outline α) (producer : Operator α) (channels : Nat)
    (operands : WeightedOperands α) : Prop
  | plain (inputs : producer.inputs = [operands.x, operands.weight])
      (weights : O.payload? operands.weight = some operands.weights)
      (bias : operands.bias = Array.replicate channels Scalar.zero)
  | biased (b : VariableId) (inputs : producer.inputs = [operands.x, operands.weight, b])
      (weights : O.payload? operands.weight = some operands.weights)
      (bias : O.payload? b = some operands.bias)

theorem Weighted.weights_eq {O : Outline α} {channels : Nat} {operands : WeightedOperands α}
    (h : Weighted O producer channels operands) :
    O.payload? operands.weight = some operands.weights := by
  cases h <;> assumption

theorem Weighted.inputs {O : Outline α} {channels : Nat} {operands : WeightedOperands α}
    (h : Weighted O producer channels operands) :
    ∃ rest, producer.inputs = operands.x :: operands.weight :: rest ∧
      ∀ u ∈ operands.weight :: rest, O.payload? u ≠ none := by
  cases h with
  | plain inputs weights _ =>
    refine ⟨[], inputs, fun u hu => ?_⟩
    rw [List.mem_singleton.1 hu, weights]
    exact (nomatch ·)
  | biased b inputs weights bias =>
    refine ⟨[b], inputs, fun u hu => ?_⟩
    rcases List.mem_pair.1 hu with rfl | rfl
    · rw [weights]
      exact (nomatch ·)
    · rw [bias]
      exact (nomatch ·)

theorem Weighted.unique {O : Outline α} {channels : Nat} {operands operands' : WeightedOperands α}
    (h : Weighted O producer channels operands) (h' : Weighted O producer channels operands') :
    operands = operands' := by
  obtain ⟨x, weight, weights, bias⟩ := operands
  obtain ⟨x', weight', weights', bias'⟩ := operands'
  cases h with
  | plain inputs found zeros =>
    cases h' with
    | plain inputs' found' zeros' =>
      cases inputs.symm.trans inputs'
      cases found.symm.trans found'
      cases zeros.trans zeros'.symm
      rfl
    | biased _ inputs' => cases inputs.symm.trans inputs'
  | biased b inputs found bound =>
    cases h' with
    | plain inputs' => cases inputs.symm.trans inputs'
    | biased _ inputs' found' bound' =>
      cases inputs.symm.trans inputs'
      cases found.symm.trans found'
      cases bound.symm.trans bound'
      rfl

/-- The producer of the scale and shift `o` with both in its weights and bias, and with the
activation of `o`. -/
inductive Absorbed (O O' : Outline α) (o : OperatorId) (producer fused : Operator α) : Prop
  | intro (op : Operator α) (activation : Option (Activation α))
      (v s b weightId biasId : VariableId) (operands : WeightedOperands α)
      (scale shift weights : Array α) (live : O.operators o = some op)
      (kind : op.kind = .axiswiseAffine 1 activation) (inputs : op.inputs = [v, s, b])
      (scale_eq : O.payload? s = some scale) (shift_eq : O.payload? b = some shift)
      (outputs : producer.outputs = [v]) (weighted : Weighted O producer scale.size operands)
      (scaled : scaledWeights operands.weights scale = some weights)
      (kind' : fused.kind = fusedKind producer.kind activation)
      (inputs' : fused.inputs = [operands.x, weightId, biasId])
      (shape' : O'.shape weightId = O.shape operands.weight)
      (weights' : O'.payload? weightId = some weights)
      (bias' : O'.payload? biasId = some (scaledBias operands.bias scale shift))

def AffineChange (rank : OperatorId → Nat) (O : Outline α) (o : OperatorId) (O' : Outline α) :
    Prop :=
  ∃ p producer fused w, O.operators p = some producer ∧ Collapse rank O O' p o [o] fused w ∧
    absorbsAffine producer.kind = true ∧ Absorbed O O' o producer fused ∧
    (fused.kind = producer.kind ∨ ∃ a, fused.kind = producer.kind.withActivation a)

/-- Weights of `outputs` blocks, one for each channel of the result. -/
theorem absorbing_shape {kind : OperatorKind α} (absorbs : absorbsAffine kind = true)
    {shapes : List Shape} {s : Shape} (typed : kind.outputShape shapes = .ok s) :
    ∃ (x w : Shape) (bias : Option Shape) (outputs block : Nat),
      shapes = x :: w :: bias.toList ∧ (∀ b ∈ bias, b = [outputs]) ∧ s[1]? = some outputs ∧
      w.size = outputs * block ∧ kind.outputShape [x, w, [outputs]] = .ok s := by
  cases kind with
  | convolution p =>
    obtain ⟨xs, ws, bias, rfl, result⟩ := convolutionShape_ok_iff.1 typed
    obtain ⟨image, dims, out, rfl, rfl, vector, inputs, kernel, window, rfl⟩ :=
      convolutionResult_ok_iff.1 result
    have blocks : ∃ block, (p.layout.shape dims).size = dims.outputs * block := by
      cases p.layout with
      | oihw => exact ⟨_, rfl⟩
      | ohwi => exact ⟨_, rfl⟩
    obtain ⟨block, size⟩ := blocks
    refine ⟨_, _, bias, dims.outputs, block, rfl, vector, rfl, size, ?_⟩
    refine convolutionShape_ok_iff.2 ⟨_, _, some [dims.outputs], rfl, ?_⟩
    exact convolutionResult_ok_iff.2 ⟨image, dims, out, rfl, rfl,
      fun b hb => (Option.some.inj hb).symm, inputs, kernel, window, rfl⟩
  | linear fused =>
    obtain ⟨xs, ws, bias, rfl, result⟩ := linearShape_ok_iff.1 typed
    obtain ⟨batch, features, outputs, rfl, some_features, rfl, vector, rfl⟩ :=
      linearResult_ok_iff.1 result
    refine ⟨_, _, bias, outputs, _, rfl, vector, rfl, rfl, ?_⟩
    show linearShape [batch :: features, [outputs, Shape.size features], [outputs]] = _
    refine linearShape_ok_iff.2 ⟨_, _, some [outputs], rfl, ?_⟩
    exact linearResult_ok_iff.2 ⟨batch, features, outputs, rfl, some_features, rfl,
      fun b hb => (Option.some.inj hb).symm, rfl⟩
  | _ => cases absorbs

theorem scaledWeights_total {weights scale : Array α} {block : Nat}
    (size : weights.size = scale.size * block) :
    ∃ r, scaledWeights weights scale = some r ∧ r.size = weights.size := by
  have each : ∀ entry ∈ weights.toList.zipIdx, ∃ y, (fun (entry : α × Nat) => do
      let s ← scale[entry.2 / (weights.size / scale.size)]?
      return entry.1 * s) entry = some y := by
    rintro ⟨x, i⟩ hm
    have bound : i < weights.size := by
      have := List.snd_lt_of_mem_zipIdx hm
      simpa using this
    have channel : i / (weights.size / scale.size) < scale.size := by
      have positive : 0 < scale.size := Nat.pos_of_ne_zero fun e => by
        rw [size, e, Nat.zero_mul] at bound
        cases bound
      rw [size, Nat.mul_div_cancel_left block positive]
      exact Nat.div_lt_of_lt_mul (by rw [Nat.mul_comm, ← size]; exact bound)
    obtain ⟨s, hs⟩ := Kernel.getElem?_total channel
    exact ⟨x * s, by simp only [hs]; rfl⟩
  obtain ⟨ys, run, length, _⟩ := Kernel.mapM_total _ each
  refine ⟨ys.toArray, ?_, by simpa using length⟩
  rw [scaledWeights]
  exact congrArg (Option.map List.toArray) run

/-- What a step looks for: the producer with its operands, and what it takes up. -/
def affineSite? (g : Graph α) (op : Operator α) : Option (Operator α × WeightedOperands α ×
    Option (Activation α) × Array α × Array α × Array α) := do
  let (x, scale, shift, activation) ← constantAffine? g op
  let producer ← (g.fusibleProducer? x op.id).bind g.operatorAt?
  if absorbsAffine producer.kind then
    let operands ← weightedOperands? g producer scale.size
    let weights ← scaledWeights operands.weights scale
    return (producer, operands, activation, scale, weights,
      scaledBias operands.bias scale shift)
  else none

theorem fuseAffineStep_eq (op : Operator α) (report : PassReport) (g : Graph α) :
    fuseAffineStep op report g = (match affineSite? g op with
      | none => pure report
      | some (producer, operands, activation, scale, weights, bias) => do
        absorbAffine op producer operands activation scale weights bias
        return report.record 1 : Edit α PassReport) g := rfl

omit [Scalar α] in
theorem constantAffine?_eq_some {x : VariableId} {scale shift : Array α}
    {activation : Option (Activation α)}
    (found : constantAffine? g op = some (x, scale, shift, activation)) :
    op.kind = .axiswiseAffine 1 activation ∧ ∃ s b rest, op.inputs = x :: s :: b :: rest ∧
      g.payload? s = some scale ∧ g.payload? b = some shift := by
  unfold constantAffine? at found
  split at found
  · next activation' x' s b rest kind inputs =>
    simp only [Option.bind_eq_bind, Option.bind_eq_some_iff] at found
    obtain ⟨scale', hs, shift', hb, e⟩ := found
    cases e
    exact ⟨kind, s, b, rest, inputs, hs, hb⟩
  · cases found

theorem weightedOperands?_eq_some {channels : Nat} {operands : WeightedOperands α}
    (found : weightedOperands? g producer channels = some operands) :
    ∃ rest, producer.inputs = operands.x :: operands.weight :: rest ∧
      g.payload? operands.weight = some operands.weights ∧
      ∀ b ∈ rest.head?, g.payload? b = some operands.bias := by
  unfold weightedOperands? at found
  split at found
  · next x weight inputs =>
    simp only [Option.bind_eq_bind, Option.bind_eq_some_iff] at found
    obtain ⟨weights, hw, e⟩ := found
    cases e
    exact ⟨[], inputs, hw, fun b hb => nomatch hb⟩
  · next x weight biasId rest inputs =>
    simp only [Option.bind_eq_bind, Option.bind_eq_some_iff] at found
    obtain ⟨weights, hw, bias, hb, e⟩ := found
    cases e
    exact ⟨biasId :: rest, inputs, hw, fun b' hb' => Option.some.inj hb' ▸ hb⟩
  · cases found

/-- What a step finds breaks the rule about links. -/
theorem affineSite?_pattern (h : g.Linked) (sound : g.outline.Sound rank)
    (ho : g.operatorAt? o = some op) (found : affineSite? g op ≠ none) :
    ¬AffineQuiet g.outline o := by
  intro quiet
  cases e : affineSite? g op with
  | none => exact found e
  | some site =>
    unfold affineSite? at e
    simp only [Option.bind_eq_bind, Option.bind_eq_some_iff] at e
    obtain ⟨⟨x, scale, shift, activation⟩, affine, producer, ⟨p, fusible, hp⟩, e⟩ := e
    split at e
    · next absorbs =>
      simp only [Option.bind_eq_some_iff] at e
      obtain ⟨operands, weighted, _⟩ := e
      obtain ⟨kind, s, b, rest, inputs, hs, hb⟩ := constantAffine?_eq_some affine
      obtain ⟨rest', producerInputs, hw, hbias⟩ := weightedOperands?_eq_some weighted
      rw [h.operator_id ho] at fusible
      have link := (fusibleProducer?_iff h).1 fusible
      refine quiet x p producer op link hp ho ⟨⟨activation, kind⟩, absorbs, fun u hu => ?_,
        fun u hu => ?_⟩
      · obtain ⟨_, _, _, _, _, inputs', _⟩ := sound.axiswiseAffine ho kind
        cases inputs.symm.trans inputs'
        rw [inputs] at hu
        rw [← payload?_eq]
        rcases List.mem_pair.1 hu with rfl | rfl
        · rw [hs]; exact (nomatch ·)
        · rw [hb]; exact (nomatch ·)
      · obtain ⟨u', _, typed⟩ := sound.result hp
        obtain ⟨_, _, bias, _, _, shapes, _⟩ := absorbing_shape absorbs typed
        rw [producerInputs, List.map_cons, List.map_cons] at shapes
        rw [producerInputs] at hu
        rw [← payload?_eq]
        rcases List.mem_cons.1 hu with rfl | hu
        · rw [hw]; exact (nomatch ·)
        · have short : rest'.length ≤ 1 := by
            have same : rest'.length = bias.toList.length := by
              simpa using congrArg List.length shapes
            have most : bias.toList.length ≤ 1 := by cases bias <;> simp
            omega
          cases rest' with
          | nil => cases hu
          | cons b' more =>
            obtain rfl : more = [] :=
              List.eq_nil_of_length_eq_zero (Nat.le_zero.1 (Nat.le_of_succ_le_succ short))
            rw [List.mem_singleton.1 hu, hbias b' rfl]
            exact (nomatch ·)
    · cases e

/-- A scale and shift `op` at `v` that its producer can take up, with what the step computes. -/
structure AffineSite (g : Graph α) (op producer : Operator α) (v w : VariableId)
    (operands : WeightedOperands α) (activation : Option (Activation α))
    (scale shift weights : Array α) : Prop where
  found : affineSite? g op =
    some (producer, operands, activation, scale, weights, scaledBias operands.bias scale shift)
  kind : op.kind = .axiswiseAffine 1 activation
  inputs : ∃ s b, op.inputs = [v, s, b] ∧ g.outline.payload? s = some scale ∧
    g.outline.payload? b = some shift
  outputs : op.outputs = [w]
  weighted : Weighted g.outline producer scale.size operands
  producerOutputs : producer.outputs = [v]
  absorbs : absorbsAffine producer.kind = true
  scaled : scaledWeights operands.weights scale = some weights
  weights_size : weights.size = (g.outline.shape operands.weight).size
  bias_size : (scaledBias operands.bias scale shift).size = scale.size
  positive : scale.size ≠ 0
  typed : producer.kind.outputShape
    [g.outline.shape operands.x, g.outline.shape operands.weight, [scale.size]] =
      .ok (g.outline.shape w)

theorem scaledBias_size {bias scale shift : Array α} (hbias : bias.size = scale.size)
    (hshift : shift.size = scale.size) : (scaledBias bias scale shift).size = scale.size := by
  simp [scaledBias, hbias, hshift]

omit [Scalar α] in
theorem constant_of_ne_none {u : VariableId} {d : Nat} (h : g.Linked)
    (constant : g.outline.payload? u ≠ none) (shape : g.outline.shape u = [d]) :
    ∃ values, g.payload? u = some values ∧ values.size = d := by
  obtain ⟨values, hv⟩ := Option.ne_none_iff_exists'.1 constant
  refine ⟨values, by rw [payload?_eq, hv], ?_⟩
  rw [payload?_size h hv, shape]
  exact Nat.mul_one d

/-- The operands of a producer with constant weights and bias. -/
theorem weightedOperands?_total (h : g.Linked) (sound : g.outline.Sound rank)
    (hp : g.operatorAt? p = some producer) (absorbs : absorbsAffine producer.kind = true)
    (constants : ∀ u ∈ producer.inputs.tail, g.outline.payload? u ≠ none) {channels : Nat}
    (outputs : producer.outputs = [v]) (dim : (g.outline.shape v)[1]? = some channels) :
    ∃ operands block, weightedOperands? g producer channels = some operands ∧
      Weighted g.outline producer channels operands ∧ operands.weights.size = channels * block ∧
      operands.weights.size = (g.outline.shape operands.weight).size ∧
      operands.bias.size = channels ∧ producer.kind.outputShape [g.outline.shape operands.x,
        g.outline.shape operands.weight, [channels]] = .ok (g.outline.shape v) := by
  obtain ⟨v', outputs', typed⟩ := sound.result hp
  cases outputs.symm.trans outputs'
  obtain ⟨xs, ws, bias, channels', block, shapes, vector, dim', size, rule⟩ :=
    absorbing_shape absorbs typed
  cases dim.symm.trans dim'
  obtain ⟨x, _, inputs, rfl, others⟩ := List.map_eq_cons_iff.1 shapes
  obtain ⟨weight, rest, rfl, rfl, more⟩ := List.map_eq_cons_iff.1 others
  rw [inputs, List.tail_cons] at constants
  obtain ⟨weights, hw⟩ := Option.ne_none_iff_exists'.1 (constants weight List.mem_cons_self)
  have weights_size := payload?_size h hw
  have hw' : g.payload? weight = some weights := by rw [payload?_eq, hw]
  cases bias with
  | none =>
    rw [Option.toList_none, List.map_eq_nil_iff] at more
    subst more
    refine ⟨⟨x, weight, weights, Array.replicate channels Scalar.zero⟩, block, ?_,
      .plain inputs hw rfl, weights_size.trans size, weights_size, Array.size_replicate, rule⟩
    simp only [weightedOperands?, inputs, hw']
    rfl
  | some s =>
    obtain ⟨b, _, rfl, hb, more⟩ := List.map_eq_cons_iff.1 more
    rw [List.map_eq_nil_iff] at more
    subst more
    obtain ⟨biases, hbias, bias_size⟩ := constant_of_ne_none h
      (constants b (List.mem_cons_of_mem _ List.mem_cons_self)) (hb.trans (vector s rfl))
    refine ⟨⟨x, weight, weights, biases⟩, block, ?_,
      .biased b inputs hw ((payload?_eq g b).symm.trans hbias), weights_size.trans size,
      weights_size, bias_size, rule⟩
    simp only [weightedOperands?, inputs, hw', hbias]
    rfl

theorem affineSite_of_pattern (h : g.Linked) (sound : g.outline.Sound rank)
    (ho : g.operatorAt? o = some op) (link : g.outline.Link v p o)
    (hp : g.operatorAt? p = some producer) (pattern : AffinePattern g.outline producer op) :
    ∃ w operands activation scale shift weights,
      AffineSite g op producer v w operands activation scale shift weights := by
  obtain ⟨⟨activation, kind⟩, absorbs, parameters, constants⟩ := pattern
  obtain ⟨x, s, b, w, channels, inputs, outputs, shape, hs, hb, dim⟩ :=
    sound.axiswiseAffine ho kind
  rw [inputs, List.tail_cons] at parameters
  have hs' := parameters s List.mem_cons_self
  have hb' := parameters b (List.mem_cons_of_mem s List.mem_cons_self)
  have unset := sound.computed link.writes
  have hv : v = x := by
    have := (Outline.reads_iff ho).1 link.once.reads
    rw [inputs] at this
    rcases List.mem_cons.1 this with e | e
    · exact e
    · exact absurd unset (parameters v e)
  subst hv
  have producerOutputs : producer.outputs = [v] := by
    obtain ⟨u, hu, _⟩ := sound.result hp
    rw [hu, link.eq_output hp hu]
  obtain ⟨scale, hscale, scale_size⟩ := constant_of_ne_none h hs' hs
  obtain ⟨shift, hshift, shift_size⟩ := constant_of_ne_none h hb' hb
  have dim' : (g.outline.shape v)[1]? = some scale.size := by rw [shape, dim, scale_size]
  obtain ⟨operands, block, found, weighted, blocks, size, bias_size, typed⟩ :=
    weightedOperands?_total h sound hp absorbs constants producerOutputs dim'
  obtain ⟨weights, scaled, weights_size⟩ := scaledWeights_total blocks
  refine ⟨w, operands, activation, scale, shift, weights, ?_, kind,
    ⟨s, b, inputs, (payload?_eq g s).symm.trans hscale, (payload?_eq g b).symm.trans hshift⟩,
    outputs, weighted, producerOutputs, absorbs, scaled, weights_size.trans size,
    scaledBias_size bias_size (shift_size.trans scale_size.symm), ?_, shape ▸ typed⟩
  · have affine : constantAffine? g op = some (v, scale, shift, activation) := by
      simp only [constantAffine?, kind, inputs, hscale, hshift]
      rfl
    have fusible : (g.fusibleProducer? v op.id).bind g.operatorAt? = some producer := by
      rw [h.operator_id ho, (fusibleProducer?_iff h).2 link]
      exact hp
    simp only [affineSite?, affine, Option.bind_eq_bind, Option.bind_some, fusible, absorbs,
      found, scaled]
    rfl
  · intro e
    have mem : channels ∈ g.outline.shape w := List.mem_of_getElem? dim
    rw [← scale_size, e] at mem
    exact sound.positive w mem

theorem fusedKind_outputShape (kind : OperatorKind α) (activation : Option (Activation α))
    (shapes : List Shape) :
    (fusedKind kind activation).outputShape shapes = kind.outputShape shapes := by
  cases activation with
  | none => rfl
  | some a => exact outputShape_withActivation a kind shapes

omit [Scalar α] in
/-- The producer takes up an activation, if there is one, and then the operator. -/
theorem absorbFused_yields (h : g.Linked) (hp : g.operatorAt? p = some producer)
    (ho : g.operatorAt? o = some op) (ne : p ≠ o) {rest : List VariableId}
    (inputs : op.inputs = v :: rest) (outputs : op.outputs = [w])
    (producerOutputs : producer.outputs = [v]) {kind : OperatorKind α}
    (same : producer.kind = kind) (activation : Option (Activation α)) :
    Yields (do
      match activation with
      | some a => Edit.setKind p (kind.withActivation a)
      | none => pure ()
      Edit.absorb p o : Edit α Unit) g ⟨⟩ ((g.outline.setOperator o none).setOperator p
        (some { producer with kind := fusedKind kind activation, outputs := [w] })) := by
  cases activation with
  | some a =>
    refine (setKind_yields h hp _).bind fun g₁ h₁ e₁ => ?_
    have hp₁ : g₁.operatorAt? p = some { producer with kind := kind.withActivation a } := by
      rw [← outline_operators, e₁]; simp
    have ho₁ : g₁.operatorAt? o = some op := by
      rw [← outline_operators, e₁]; simp [ne.symm, ho]
    obtain ⟨g₂, run, h₂, e₂⟩ := absorb_yields h₁ hp₁ ho₁ ne inputs outputs producerOutputs
    refine ⟨g₂, run, h₂, ?_⟩
    rw [e₂, e₁, Outline.setOperator_comm _ ne, Outline.setOperator_setOperator]
    rfl
  | none =>
    subst same
    exact absorb_yields h hp ho ne inputs outputs producerOutputs

omit [Scalar α] in
/-- The producer reads other constants, and then takes up the operator. -/
theorem absorbAffine_yields (h : g.Linked) (hp : g.operatorAt? p = some producer)
    (ho : g.operatorAt? o = some op) (ne : p ≠ o) {us rest : List VariableId}
    (live : ∀ u ∈ us, g.outline.Live u) (inputs : op.inputs = v :: rest)
    (outputs : op.outputs = [w]) (producerOutputs : producer.outputs = [v])
    (activation : Option (Activation α)) :
    Yields (do
      Edit.setInputs p us
      match activation with
      | some a => Edit.setKind p (producer.kind.withActivation a)
      | none => pure ()
      Edit.absorb p o : Edit α Unit) g ⟨⟩ ((g.outline.setOperator o none).setOperator p
        (some { producer with
          inputs := us, kind := fusedKind producer.kind activation, outputs := [w] })) := by
  refine (setInputs_yields h hp live).bind fun g₁ h₁ e₁ => ?_
  have hp₁ : g₁.operatorAt? p = some { producer with inputs := us } := by
    rw [← outline_operators, e₁]; simp
  have ho₁ : g₁.operatorAt? o = some op := by
    rw [← outline_operators, e₁]; simp [ne.symm, ho]
  have same : ({ producer with inputs := us } : Operator α).kind = producer.kind := rfl
  obtain ⟨g₂, run, h₂, e₂⟩ :=
    absorbFused_yields h₁ hp₁ ho₁ ne inputs outputs producerOutputs same activation
  refine ⟨g₂, run, h₂, ?_⟩
  rw [e₂, e₁, Outline.setOperator_comm _ ne, Outline.setOperator_setOperator]

theorem absorbAffine_collapse (h : g.Linked) (sound : g.outline.Sound rank)
    (ho : g.operatorAt? o = some op) (link : g.outline.Link v p o)
    (hp : g.operatorAt? p = some producer) {operands : WeightedOperands α}
    {activation : Option (Activation α)} {scale shift weights : Array α}
    (site : AffineSite g op producer v w operands activation scale shift weights)
    {O₁ : Outline α} {a b : VariableId} {q r : Array α}
    (two : TwoConstants g.outline O₁ a b (g.outline.shape operands.weight) [scale.size] q r) :
    let fused : Operator α := { producer with
      inputs := [operands.x, a, b], kind := fusedKind producer.kind activation, outputs := [w] }
    Collapse rank g.outline ((O₁.setOperator o none).setOperator p (some fused)) p o [o] fused
      w := by
  obtain ⟨s, t, inputs, hs, ht⟩ := site.inputs
  obtain ⟨rest, producerInputs, constants⟩ := site.weighted.inputs
  have live : g.outline.Live operands.x :=
    h.input_live ⟨producer, hp, by rw [producerInputs]; exact List.mem_cons_self⟩
  refine collapse_link sound link hp ho (.inr ⟨rfl, rfl⟩)
    (two.grows.splice_two hp ho (link.ne sound)) rfl site.outputs ?_ (fun u hu => ?_)
    (fun u hu unset => ?_) (fun u hu => ?_) fun u live' unset count => ?_
  · show (fusedKind producer.kind activation).outputShape
      [O₁.shape operands.x, O₁.shape a, O₁.shape b] = _
    rw [fusedKind_outputShape, two.grows.shape_eq live, two.shape_fst, two.shape_snd]
    exact site.typed
  · rcases List.mem_cons.1 hu with rfl | hu
    · exact .inr (by rw [producerInputs]; exact List.mem_cons_self)
    · exact .inl (two.constant u hu)
  · rw [producerInputs] at hu
    rcases List.mem_cons.1 hu with rfl | hu
    · exact List.mem_cons_self
    · exact absurd unset (constants u hu)
  · rw [inputs] at hu
    rcases List.mem_cons.1 hu with rfl | hu
    · exact .inl rfl
    · refine .inr ?_
      rcases List.mem_pair.1 hu with rfl | rfl
      · rw [hs]
        exact (nomatch ·)
      · rw [ht]
        exact (nomatch ·)
  · have hu : u ∈ [operands.x, a, b] := List.count_pos_iff.1 (count ▸ Nat.one_pos)
    have first := two.eq_of_live live' hu
    have rest_free : u ∉ operands.weight :: rest := fun hm => constants u hm unset
    rw [producerInputs, first, List.count_cons_self,
      List.count_eq_zero_of_not_mem (first ▸ rest_free)]

theorem absorbAffine_change (h : g.Linked) (sound : g.outline.Sound rank)
    (ho : g.operatorAt? o = some op) (link : g.outline.Link v p o)
    (hp : g.operatorAt? p = some producer) {operands : WeightedOperands α}
    {activation : Option (Activation α)} {scale shift weights : Array α}
    (site : AffineSite g op producer v w operands activation scale shift weights) :
    ∃ O', Yields (absorbAffine op producer operands activation scale weights
        (scaledBias operands.bias scale shift)) g ⟨⟩ O' ∧
      AffineChange rank g.outline o O' := by
  obtain ⟨s, t, inputs, hs, ht⟩ := site.inputs
  obtain ⟨rest, producerInputs, _⟩ := site.weighted.inputs
  have live : g.outline.Live operands.x :=
    h.input_live ⟨producer, hp, by rw [producerInputs]; exact List.mem_cons_self⟩
  obtain ⟨a, b, O₁, two, added⟩ := addConstants h (g.derivedName operands.weight "scaled")
    (g.derivedName operands.weight "bias") (g.outline.shape operands.weight) [scale.size]
    site.weights_size (site.bias_size.trans (Nat.mul_one _).symm)
    (sound.positive operands.weight) fun zero => site.positive (List.mem_singleton.1 zero).symm
  let fused : Operator α := { producer with
    inputs := [operands.x, a, b], kind := fusedKind producer.kind activation, outputs := [w] }
  let absorb (a b : VariableId) : Edit α Unit := do
    Edit.setInputs p [operands.x, a, b]
    match activation with
    | some a => Edit.setKind p (producer.kind.withActivation a)
    | none => pure ()
    Edit.absorb p o
  have absorbed : ∀ g₁, g₁.Linked → g₁.outline = O₁ →
      Yields (absorb a b) g₁ ⟨⟩ ((O₁.setOperator o none).setOperator p (some fused)) := by
    rintro g₁ h₁ rfl
    have before {q : OperatorId} : g₁.operatorAt? q = g.operatorAt? q := by
      rw [← outline_operators, two.grows.operators]
      rfl
    exact absorbAffine_yields h₁ (before.trans hp) (before.trans ho) (link.ne sound)
      (two.live live) inputs site.outputs site.producerOutputs activation
  refine ⟨(O₁.setOperator o none).setOperator p (some fused), ?_, p, producer, fused, w, hp,
    absorbAffine_collapse h sound ho link hp site two, site.absorbs,
    .intro op activation v s t a b operands scale shift weights ho site.kind inputs hs ht
      site.producerOutputs site.weighted site.scaled rfl rfl two.shape_fst two.payload_fst
      two.payload_snd, ?_⟩
  · obtain ⟨g', run, after⟩ := added absorbed
    refine ⟨g', ?_, after⟩
    rw [absorbAffine, h.operator_id hp, h.operator_id ho, run_bind_ok (run_get g), shape_eq]
    exact run
  · cases activation with
    | none => exact .inl rfl
    | some a => exact .inr ⟨a, rfl⟩

theorem fuseAffineStep_outcome (h : g.Linked) (sound : g.outline.Sound rank)
    (ho : g.operatorAt? o = some op) (report : PassReport) :
    AffineQuiet g.outline o ∨ ∃ report' O', report'.changed = true ∧
      Yields (fuseAffineStep op report) g report' O' ∧ AffineChange rank g.outline o O' := by
  by_cases quiet : AffineQuiet g.outline o
  · exact .inl quiet
  refine .inr ?_
  simp only [Outline.Unlinked, not_forall, not_not] at quiet
  obtain ⟨v, p, producer, op', link, hp, ho', pattern⟩ := quiet
  cases ho.symm.trans ho'
  obtain ⟨w, operands, activation, scale, shift, weights, site⟩ :=
    affineSite_of_pattern h sound ho link hp pattern
  obtain ⟨O', ⟨g', run, rest⟩, change⟩ := absorbAffine_change h sound ho link hp site
  refine ⟨report.record 1, O', rfl, ⟨g', ?_, rest⟩, change⟩
  rw [fuseAffineStep_eq, site.found]
  exact run_bind_ok run

theorem fuseAffineStep_idle (h : g.Linked) (sound : g.outline.Sound rank)
    (ho : g.operatorAt? o = some op) (quiet : AffineQuiet g.outline o) (report : PassReport) :
    fuseAffineStep op report g = .ok report g := by
  have missing : affineSite? g op = none := by
    by_contra found
    exact affineSite?_pattern h sound ho found quiet
  rw [fuseAffineStep_eq, missing]
  rfl

omit [Scalar α] in
theorem absorbs_not_axiswise {kind : OperatorKind α} (absorbs : absorbsAffine kind = true)
    (axis : Nat) (fused : Option (Activation α)) : kind ≠ .axiswiseAffine axis fused := by
  rintro rfl
  cases absorbs

omit [Scalar α] in
theorem absorbs_withActivation {kind : OperatorKind α} (absorbs : absorbsAffine kind = true)
    (a : Activation α) (axis : Nat) (fused : Option (Activation α)) :
    kind.withActivation a ≠ .axiswiseAffine axis fused := by
  cases kind <;> simp [absorbsAffine] at absorbs <;> simp [OperatorKind.withActivation]

/-- What an affine pattern says of constants does not change with a collapse. -/
theorem Collapse.affinePattern {O' : Outline α} {host last : OperatorId}
    {gone : List OperatorId} {fused : Operator α}
    (collapse : Collapse rank g.outline O' host last gone fused w) (h : g.Linked)
    {q q' : OperatorId} {reader : Operator α} (hq : g.operatorAt? q = some producer)
    (hq' : g.operatorAt? q' = some reader) (pattern : AffinePattern O' producer reader) :
    AffinePattern g.outline producer reader := by
  obtain ⟨kind, absorbs, parameters, constants⟩ := pattern
  refine ⟨kind, absorbs, fun u hu => ?_, fun u hu => ?_⟩
  · rw [← collapse.payload?_eq (h.input_live ⟨reader, hq', List.mem_of_mem_tail hu⟩)]
    exact parameters u hu
  · rw [← collapse.payload?_eq (h.input_live ⟨producer, hq, List.mem_of_mem_tail hu⟩)]
    exact constants u hu

theorem AffineChange.settles (h : g.Linked) (sound : g.outline.Sound rank) {O' : Outline α}
    (change : AffineChange rank g.outline o O')
    (before : ∀ q, rank q < rank o → AffineQuiet g.outline q) (q : OperatorId)
    (hq : rank q < rank o ∨ q = o) : AffineQuiet O' q := by
  obtain ⟨p, producer, fused, w, hp, collapse, absorbs, _, kind⟩ := change
  rcases hq with lt | rfl
  · by_cases e : q = p
    · subst e
      refine collapse.unlinked_host h sound fun _ _ _ _ _ _ _ _ _ _ _ bad => ?_
      obtain ⟨⟨act, fusedKind⟩, _⟩ := bad
      rcases kind with same | ⟨a, same⟩
      · exact absorbs_not_axiswise absorbs 1 act (same.symm.trans fusedKind)
      · exact absorbs_withActivation absorbs a 1 act (same.symm.trans fusedKind)
    · have ne : q ≠ o := fun e => Nat.lt_irrefl _ (e ▸ lt)
      refine collapse.unlinked_other h sound (by simp [e, ne])
        (fun _ _ _ hq hq' bad => collapse.affinePattern h hq hq' bad)
        (fun _ _ read _ _ _ => ?_) (before q lt)
      exact absurd read (sound.not_reads collapse.last_writes (Nat.le_of_lt lt))
  · exact Outline.unlinked_dead (collapse.operators_gone q List.mem_cons_self)

theorem fuseAffineStep_rule : StepRule (α := α) fuseAffineStep AffineQuiet AffineChange where
  dead := Outline.unlinked_dead
  pruned quiet := quiet.pruned fun _ _ ⟨kind, absorbs, parameters, constants⟩ =>
    ⟨kind, absorbs, fun u hu => Outline.payload?_of_pruned (parameters u hu),
      fun u hu => Outline.payload?_of_pruned (constants u hu)⟩
  idle report h sound ho quiet := fuseAffineStep_idle h sound ho quiet report
  outcome report h sound ho := fuseAffineStep_outcome h sound ho report
  sound h sound change := by
    obtain ⟨_, _, _, _, _, collapse, _⟩ := change
    exact collapse.sound h sound
  keeps h sound change := by
    obtain ⟨_, _, _, _, _, collapse, _⟩ := change
    exact collapse.keeps h
  settles h sound change := change.settles h sound

end TensorGraph
