import TensorGraph.Proofs.Pass.Fusion

/-!
# TensorGraph.Proofs.Meaning.Chain

Which scales and shifts go into which operator, told from the graph before the pass.

* `Outline.AffineChain`: scales and shifts one after the other behind a convolution or linear
  operator, and what this operator is with all of them in its weights and bias.
* `Outline.FoldedInto`: some operators have taken up such chains, and all others are as they were.
  `AffineChange.folds` says that a step of the pass keeps this.
* `Outline.FoldedInto.settled`: where nothing is left to do, every chain has been taken up.
-/

namespace TensorGraph

open TensorGraph.Graph Pass

variable {α : Type}

/-- A convolution or linear operator with constant weights and bias. -/
structure AffineHost (α : Type) where
  kind : OperatorKind α
  operands : WeightedOperands α
  result : VariableId

variable [Scalar α]

namespace Outline

/-- `o` scales and shifts the result of a host per channel, and nothing else reads this result. The
other host has every output channel of the weights scaled and the bias scaled and shifted. It has
the activation of `o`, and its result. -/
inductive TakesUp (O : Outline α) (channels : Nat) (o : OperatorId) :
    AffineHost α → AffineHost α → Prop
  | intro {kind : OperatorKind α} {operands : WeightedOperands α} {v s b w : VariableId}
      {op : Operator α} {activation : Option (Activation α)} {scale shift weights : Array α}
      (absorbs : absorbsAffine kind = true) (once : O.Once v o) (inner : v ∉ O.outputs)
      (live : O.operators o = some op) (affine : op.kind = .axiswiseAffine 1 activation)
      (inputs : op.inputs = [v, s, b]) (outputs : op.outputs = [w])
      (scale_eq : O.payload? s = some scale) (shift_eq : O.payload? b = some shift)
      (size : scale.size = channels)
      (scaled : scaledWeights operands.weights scale = some weights) :
      O.TakesUp channels o ⟨kind, operands, v⟩ ⟨fusedKind kind activation,
        { operands with weights, bias := scaledBias operands.bias scale shift }, w⟩

/-- The scales and shifts `os` stand behind the operator `p`, each one behind the one before it, and
the host is `p` with all of them taken up. -/
inductive AffineChain (O : Outline α) (p : OperatorId) : List OperatorId → AffineHost α → Prop
  | one {producer : Operator α} {operands : WeightedOperands α} {channels : Nat} {v : VariableId}
      {o : OperatorId} {host : AffineHost α} (live : O.operators p = some producer)
      (outputs : producer.outputs = [v]) (weighted : Weighted O producer channels operands)
      (takes : O.TakesUp channels o ⟨producer.kind, operands, v⟩ host) : O.AffineChain p [o] host
  | snoc {os : List OperatorId} {o : OperatorId} {channels : Nat} {host host' : AffineHost α}
      (earlier : O.AffineChain p os host) (takes : O.TakesUp channels o host host') :
      O.AffineChain p (os ++ [o]) host'

/-- `O'` has what `p` is with the chain `os` of `O` taken up. -/
inductive Folded (O O' : Outline α) (p : OperatorId) (os : List OperatorId) (host : AffineHost α) :
    Prop
  | intro {fused : Operator α} {weight bias : VariableId} (chain : O.AffineChain p os host)
      (gone : ∀ o ∈ os, O'.operators o = none) (live : O'.operators p = some fused)
      (kind : fused.kind = host.kind) (inputs : fused.inputs = [host.operands.x, weight, bias])
      (outputs : fused.outputs = [host.result])
      (shape : O'.shape weight = O.shape host.operands.weight)
      (weights : O'.payload? weight = some host.operands.weights)
      (biases : O'.payload? bias = some host.operands.bias)

omit [Scalar α] in
/-- An operator is as it was, and so are the tensors that it reads. -/
structure Unchanged (O O' : Outline α) (q : OperatorId) : Prop where
  operator : O'.operators q = O.operators q
  operands : ∀ v, O.Reads q v → O'.tensors v = O.tensors v

/-- Some operators have taken up chains, and all others are as they were. What the operators of
these chains read of each other is not computed any more. -/
structure FoldedInto (O O' : Outline α) : Prop where
  outputs : O'.outputs = O.outputs
  each : ∀ q, O.Unchanged O' q ∨ ∃ p os host, (q = p ∨ q ∈ os) ∧ O.Folded O' p os host
  inner : ∀ c v, O.Reads c v → O.payload? v = none → O'.Reads c v ∨ ∀ q, ¬O'.Writes q v

/-! ## Chains -/

section

variable {O O' : Outline α} {rank : OperatorId → Nat} {p q o c : OperatorId}
  {os : List OperatorId} {channels : Nat} {host host' : AffineHost α} {op : Operator α}
  {v : VariableId}

theorem TakesUp.kind_ne (h : O.TakesUp channels o host host') (axis : Nat)
    (activation : Option (Activation α)) : host'.kind ≠ .axiswiseAffine axis activation := by
  obtain @⟨_, _, _, _, _, _, _, taken, _, _, _, absorbs⟩ := h
  cases taken with
  | none => exact absorbs_not_axiswise absorbs axis activation
  | some a => exact absorbs_withActivation absorbs a axis activation

theorem AffineChain.kind_ne (h : O.AffineChain p os host) (axis : Nat)
    (activation : Option (Activation α)) : host.kind ≠ .axiswiseAffine axis activation := by
  cases h with
  | one _ _ _ takes => exact takes.kind_ne axis activation
  | snoc _ takes => exact takes.kind_ne axis activation

/-- A chain starts at an operator that can take up its first member. -/
theorem AffineChain.start (h : O.AffineChain p os host) : ∃ producer rest,
    O.operators p = some producer ∧ absorbsAffine producer.kind = true ∧
    producer.inputs = host.operands.x :: rest ∧ ∀ u ∈ rest, O.payload? u ≠ none := by
  induction h with
  | one live _ weighted takes =>
    obtain ⟨absorbs⟩ := takes
    obtain ⟨rest, inputs, constants⟩ := weighted.inputs
    exact ⟨_, _, live, absorbs, inputs, constants⟩
  | snoc _ takes ih =>
    cases takes
    exact ih

theorem AffineChain.member (h : O.AffineChain p os host) (ho : o ∈ os) : ∃ op activation,
    O.operators o = some op ∧ op.kind = .axiswiseAffine 1 activation := by
  induction h with
  | one _ _ _ takes =>
    obtain ⟨_, _, _, live, affine⟩ := takes
    cases List.mem_singleton.1 ho
    exact ⟨_, _, live, affine⟩
  | snoc _ takes ih =>
    rcases List.mem_append.1 ho with earlier | last
    · exact ih earlier
    · obtain ⟨_, _, _, live, affine⟩ := takes
      cases List.mem_singleton.1 last
      exact ⟨_, _, live, affine⟩

/-- The result of a chain is that of its last member. -/
theorem AffineChain.last (h : O.AffineChain p os host) : ∃ front o op, os = front ++ [o] ∧
    O.operators o = some op ∧ op.outputs = [host.result] := by
  cases h with
  | one _ _ _ takes =>
    obtain ⟨_, _, _, live, _, _, outputs⟩ := takes
    exact ⟨[], _, _, rfl, live, outputs⟩
  | snoc _ takes =>
    obtain ⟨_, _, _, live, _, _, outputs⟩ := takes
    exact ⟨_, _, _, rfl, live, outputs⟩

theorem AffineChain.unset (h : O.AffineChain p os host) (sound : O.Sound rank) :
    O.payload? host.result = none := by
  obtain ⟨_, o, op, _, live, outputs⟩ := h.last
  exact sound.computed ⟨op, live, by rw [outputs]; exact List.mem_singleton.2 rfl⟩

theorem TakesUp.unique {n n' : Nat} {start host host' : AffineHost α}
    (h : O.TakesUp n o start host) (h' : O.TakesUp n' o start host') : host = host' := by
  obtain ⟨_, _, _, live, affine, inputs, outputs, scale, shift, _, scaled⟩ := h
  obtain ⟨_, _, _, live', affine', inputs', outputs', scale', shift', _, scaled'⟩ := h'
  cases live.symm.trans live'
  cases affine.symm.trans affine'
  cases inputs.symm.trans inputs'
  cases outputs.symm.trans outputs'
  cases scale.symm.trans scale'
  cases shift.symm.trans shift'
  cases scaled.symm.trans scaled'
  rfl

theorem TakesUp.channels_eq {n n' : Nat} {start start' : AffineHost α}
    (h : O.TakesUp n o start host) (h' : O.TakesUp n' o start' host') : n = n' := by
  obtain ⟨_, _, _, live, _, inputs, _, scale, _, rfl⟩ := h
  obtain ⟨_, _, _, live', _, inputs', _, scale', _, rfl⟩ := h'
  cases live.symm.trans live'
  cases inputs.symm.trans inputs'
  cases scale.symm.trans scale'
  rfl

/-- What becomes of the operator is determined by its chain. -/
theorem AffineChain.unique (h : O.AffineChain p os host) (h' : O.AffineChain p os host') :
    host = host' := by
  induction h generalizing host' with
  | one live outputs weighted takes =>
    generalize e : [_] = all at h'
    cases h' with
    | one live' outputs' weighted' takes' =>
      cases e
      cases live.symm.trans live'
      cases outputs.symm.trans outputs'
      cases takes.channels_eq takes'
      cases weighted.unique weighted'
      exact takes.unique takes'
    | snoc earlier _ =>
      obtain ⟨front, _, _, rfl, _⟩ := earlier.last
      exact absurd (congrArg List.length e) (by simp)
  | @snoc os o _ _ _ earlier takes ih =>
    generalize e : os ++ [o] = all at h'
    cases h' with
    | one _ _ _ _ =>
      obtain ⟨front, _, _, rfl, _⟩ := earlier.last
      exact absurd (congrArg List.length e) (by simp)
    | snoc earlier' takes' =>
      obtain ⟨same, last⟩ := List.append_inj' e rfl
      cases same
      cases last
      cases ih earlier'
      exact takes.unique takes'

/-- What a longer chain has next alone reads the result of the shorter one. -/
theorem AffineChain.next {more : List OperatorId} (h : O.AffineChain p os host)
    (h' : O.AffineChain p (os ++ o :: more) host') : O.Once host.result o := by
  generalize e : os ++ o :: more = all at h'
  induction h' generalizing more with
  | one _ _ _ _ =>
    obtain ⟨front, _, _, rfl, _⟩ := h.last
    have := congrArg List.length e
    simp at this
    omega
  | @snoc os' o' _ _ _ earlier takes ih =>
    rcases List.eq_nil_or_concat more with rfl | ⟨more', o'', rfl⟩
    · obtain ⟨same, last⟩ := List.append_inj' e rfl
      cases same
      cases last
      cases h.unique earlier
      obtain ⟨_, once⟩ := takes
      exact once
    · rw [List.concat_eq_append, ← List.cons_append, ← List.append_assoc] at e
      have earlier' : os ++ o :: more' = os' := (List.append_inj' e rfl).1
      exact ih earlier'

/-- What the first member of a chain reads. -/
theorem AffineChain.first {producer : Operator α} (h : O.AffineChain p os host)
    (live : O.operators p = some producer) (outputs : producer.outputs = [v]) :
    ∃ o more, os = o :: more ∧ O.Once v o := by
  induction h with
  | one live' outputs' _ takes =>
    cases live.symm.trans live'
    cases outputs.symm.trans outputs'
    obtain ⟨_, once⟩ := takes
    exact ⟨_, [], rfl, once⟩
  | snoc _ _ ih =>
    obtain ⟨o, more, rfl, once⟩ := ih
    exact ⟨o, more ++ _, rfl, once⟩

/-! ## Chains that are taken up -/

omit [Scalar α] in
theorem Unchanged.trans {O'' : Outline α} (h : O.Unchanged O' q) (h' : O'.Unchanged O'' q) :
    O.Unchanged O'' q where
  operator := h'.operator.trans h.operator
  operands v read := by
    obtain ⟨op, hq, hv⟩ := read
    rw [h'.operands v ⟨op, h.operator.trans hq, hv⟩, h.operands v ⟨op, hq, hv⟩]

omit [Scalar α] in
theorem unchanged_pruned (O : Outline α) (q : OperatorId) : O.Unchanged O.pruned q :=
  ⟨rfl, fun _ read => pruned_tensors (.inr (.inl ⟨q, read⟩))⟩

theorem Folded.trans {O'' : Outline α} (h : O.Folded O' p os host) (same : O'.Unchanged O'' p)
    (gone : ∀ o ∈ os, O''.operators o = none) : O.Folded O'' p os host := by
  obtain ⟨chain, _, live, kind, inputs, outputs, shape, weights, biases⟩ := h
  have kept {v : VariableId} (hv : v ∈ _) : O''.tensors v = O'.tensors v :=
    same.operands v ⟨_, live, inputs ▸ hv⟩
  have first := kept (List.mem_cons_of_mem _ List.mem_cons_self)
  have second := kept (List.mem_cons_of_mem _ (List.mem_cons_of_mem _ List.mem_cons_self))
  exact ⟨chain, gone, same.operator.trans live, kind, inputs, outputs,
    (shape_congr first).trans shape, (payload?_congr first).trans weights,
    (payload?_congr second).trans biases⟩

namespace FoldedInto

variable (h : O.FoldedInto O')

include h

/-- An operator that is left is as it was, or has taken up a chain. -/
theorem cases_live (live : O'.operators q = some op) :
    O.Unchanged O' q ∨ ∃ os host, O.Folded O' q os host := by
  rcases h.each q with same | ⟨p, os, host, rfl | mem, folded⟩
  · exact .inl same
  · exact .inr ⟨os, host, folded⟩
  · obtain ⟨_, gone⟩ := folded
    cases live.symm.trans (gone q mem)

/-- Scales and shifts that are left are as they were. -/
theorem unchanged (live : O'.operators o = some op) {axis : Nat}
    {activation : Option (Activation α)} (kind : op.kind = .axiswiseAffine axis activation) :
    O.Unchanged O' o := by
  rcases h.cases_live live with same | ⟨os, host, folded⟩
  · exact same
  · obtain ⟨chain, _, live', kind'⟩ := folded
    cases live.symm.trans live'
    exact absurd (kind'.symm.trans kind) (chain.kind_ne axis activation)

/-- Computed values are read where they were read before. -/
theorem reads_of (unset : O'.payload? v = none) (read : O'.Reads c v) : O.Reads c v := by
  obtain ⟨op, hc, hv⟩ := read
  rcases h.cases_live hc with same | ⟨os, host, folded⟩
  · exact ⟨op, same.operator ▸ hc, hv⟩
  · obtain ⟨chain, _, live, _, inputs, _, _, weights, biases⟩ := folded
    cases live.symm.trans hc
    obtain ⟨producer, rest, start, _, inputs', _⟩ := chain.start
    rw [inputs] at hv
    rcases List.mem_cons.1 hv with rfl | hv
    · exact ⟨producer, start, by rw [inputs']; exact List.mem_cons_self⟩
    · rcases List.mem_pair.1 hv with rfl | rfl
      · cases unset.symm.trans weights
      · cases unset.symm.trans biases

/-- A value that is written was computed before. -/
theorem unset_of (start : O.Sound rank) (written : O'.Writes p v) : O.payload? v = none := by
  obtain ⟨op, hp, hv⟩ := written
  rcases h.cases_live hp with same | ⟨os, host, folded⟩
  · exact start.computed ⟨op, same.operator ▸ hp, hv⟩
  · obtain ⟨chain, _, live, _, _, outputs, _⟩ := folded
    cases live.symm.trans hp
    rw [outputs] at hv
    exact List.mem_singleton.1 hv ▸ chain.unset start

/-- A link to a scale and shift, told in the outline before. -/
theorem once (start : O.Sound rank) (link : O'.Link v p o) (live : O'.operators o = some op)
    {axis : Nat} {activation : Option (Activation α)}
    (kind : op.kind = .axiswiseAffine axis activation) : O.Once v o := by
  obtain ⟨⟨op', live', count⟩, alone⟩ := link.once
  have same := h.unchanged live kind
  cases live.symm.trans live'
  refine ⟨⟨op, same.operator ▸ live, count⟩, fun c read => ?_⟩
  rcases h.inner c v read (h.unset_of start link.writes) with read | unwritten
  · exact alone c read
  · exact absurd link.writes (unwritten p)

/-- What an operator with constant weights and bias computes from is what it did before. -/
theorem input_eq {producer : Operator α} {operands : WeightedOperands α} {u : VariableId}
    (hp : O'.operators p = some producer) (weighted : Weighted O' producer channels operands)
    (read : O.Reads p u) (unset : O.payload? u = none) : u = operands.x := by
  obtain ⟨rest, inputs, constants⟩ := weighted.inputs
  rcases h.cases_live hp with same | ⟨os, host, folded⟩
  · have hu : u ∈ producer.inputs :=
      (reads_iff (same.operator.symm.trans hp)).1 read
    have unset' : O'.payload? u = none := (payload?_congr (same.operands u read)).trans unset
    rw [inputs] at hu
    exact (List.mem_cons.1 hu).resolve_right fun hu => constants u hu unset'
  · obtain ⟨chain, _, live, _, inputs', _⟩ := folded
    cases hp.symm.trans live
    obtain ⟨first, rest', live', _, before, constants'⟩ := chain.start
    have hu : u ∈ first.inputs := (reads_iff live').1 read
    rw [before] at hu
    rw [(List.mem_cons.1 hu).resolve_right fun hu => constants' u hu unset]
    exact (List.cons.inj (inputs'.symm.trans inputs)).1

theorem pruned : O.FoldedInto O'.pruned where
  outputs := h.outputs
  each q := by
    rcases h.each q with same | ⟨p, os, host, hq, folded⟩
    · exact .inl (same.trans (unchanged_pruned O' q))
    · obtain ⟨_, gone⟩ := id folded
      exact .inr ⟨p, os, host, hq, folded.trans (unchanged_pruned O' p) gone⟩
  inner := h.inner

end FoldedInto

theorem foldedInto_refl (O : Outline α) : O.FoldedInto O :=
  ⟨rfl, fun _ => .inl ⟨rfl, fun _ _ => rfl⟩, fun _ _ read _ => .inl read⟩

end

end Outline

/-! ## Steps -/

namespace Collapse

variable {g : Graph α} {O' : Outline α} {rank : OperatorId → Nat} {host last q : OperatorId}
  {gone : List OperatorId} {op : Operator α} {w : VariableId}

theorem unchanged (h : Collapse rank g.outline O' host last gone op w) (linked : g.Linked)
    (other : q ∉ host :: gone) : g.outline.Unchanged O' q :=
  ⟨h.operators_other q other, fun _ read => h.tensors (linked.input_live read)⟩

/-- Operators do not come back. -/
theorem operators_none (h : Collapse rank g.outline O' host last gone op w)
    {producer : Operator α} (live : g.outline.operators host = some producer)
    (absent : g.outline.operators q = none) : O'.operators q = none := by
  by_cases group : q ∈ host :: gone
  · rcases List.mem_cons.1 group with rfl | removed
    · cases live.symm.trans absent
    · exact h.operators_gone q removed
  · exact (h.operators_other q group).trans absent

end Collapse

theorem Absorbed.host_ne {O O' : Outline α} {p o : OperatorId} {producer fused : Operator α}
    (absorbed : Absorbed O O' o producer fused) (hp : O.operators p = some producer)
    (absorbs : absorbsAffine producer.kind = true) : p ≠ o := by
  rintro rfl
  obtain ⟨op, activation, _, _, _, _, _, _, _, _, _, ho, affine, _⟩ := absorbed
  cases hp.symm.trans ho
  exact absorbs_not_axiswise absorbs 1 activation affine

section

variable {g : Graph α} {O O' : Outline α} {rank first : OperatorId → Nat} {p o : OperatorId}
  {producer fused op : Operator α} {v s b w : VariableId} (linked : g.Linked)
  (sound : g.outline.Sound rank) (hp : g.operatorAt? p = some producer)
  (collapse : Collapse rank g.outline O' p o [o] fused w)

include linked sound hp collapse

/-- A scale and shift that goes into its producer reads its result, and else constants. -/
theorem Collapse.affine_link (ne : p ≠ o) (ho : g.operatorAt? o = some op)
    (inputs : op.inputs = [v, s, b]) (scale : g.outline.payload? s ≠ none)
    (shift : g.outline.payload? b ≠ none) (outputs : producer.outputs = [v]) :
    v ≠ w ∧ g.outline.Link v p o := by
  have once (u : VariableId) (hu : u ∈ op.inputs) (unset : g.outline.payload? u = none) :
      op.inputs.count u = 1 := by
    have first : s ≠ u := fun e => scale (e ▸ unset)
    have second : b ≠ u := fun e => shift (e ▸ unset)
    rw [inputs] at hu ⊢
    obtain rfl : u = v := by simpa [first.symm, second.symm] using hu
    simp [first, second]
  obtain ⟨v', same, differ, link⟩ := collapse.pair_link linked sound ne hp ho once
  cases outputs.symm.trans same
  exact ⟨differ, link⟩

variable (start : O.Sound first) (h : O.FoldedInto g.outline)
  (absorbs : absorbsAffine producer.kind = true)

include start h absorbs

/-- A step starts a chain, or makes one longer. -/
theorem Absorbed.chain (absorbed : Absorbed g.outline O' o producer fused) :
    (O.Unchanged g.outline p → ∃ host, O.Folded O' p [o] host) ∧
      ∀ os host, O.Folded g.outline p os host → ∃ host', O.Folded O' p (os ++ [o]) host' := by
  have ne : p ≠ o := absorbed.host_ne hp absorbs
  obtain ⟨op, activation, v, s, b, weightId, biasId, operands, scale, shift, weights, ho, affine,
    inputs, scale_eq, shift_eq, written, weighted, scaled, kind, operands', shape, weights', biases⟩
    := absorbed
  obtain ⟨_, link⟩ := collapse.affine_link linked sound hp ne ho inputs
    (by rw [scale_eq]; exact (nomatch ·)) (by rw [shift_eq]; exact (nomatch ·)) written
  have before : O.Unchanged g.outline o := h.unchanged ho affine
  have live : O.operators o = some op := before.operator.symm.trans ho
  have kept {u : VariableId} (hu : u ∈ op.inputs) : O.payload? u = g.outline.payload? u :=
    (Outline.payload?_congr (before.operands u ⟨op, live, hu⟩)).symm
  have takes {k : OperatorKind α} {x : WeightedOperands α} (absorbs : absorbsAffine k = true)
      (scaled : scaledWeights x.weights scale = some weights) :
      O.TakesUp scale.size o ⟨k, x, v⟩ ⟨fusedKind k activation,
        { x with weights, bias := scaledBias x.bias scale shift }, w⟩ :=
    .intro absorbs (h.once start link ho affine) (h.outputs ▸ link.inner) live affine inputs
      (collapse.last_outputs sound ho) ((kept (by rw [inputs]; simp)).trans scale_eq)
      ((kept (by rw [inputs]; simp)).trans shift_eq) rfl scaled
  have gone : ∀ c ∈ [o], O'.operators c = none := collapse.operators_gone
  refine ⟨fun alone => ?_, fun os host folded => ?_⟩
  · have hp' : O.operators p = some producer := alone.operator.symm.trans hp
    have read {u : VariableId} (hu : u ∈ producer.inputs) := alone.operands u ⟨_, hp', hu⟩
    have weighted' : Weighted O producer scale.size operands := by
      cases weighted with
      | plain inputs weights bias =>
        exact .plain inputs ((Outline.payload?_congr (read (by rw [inputs]; simp))).symm.trans
          weights) bias
      | biased b inputs weights bias =>
        exact .biased b inputs ((Outline.payload?_congr (read (by rw [inputs]; simp))).symm.trans
          weights) ((Outline.payload?_congr (read (by rw [inputs]; simp))).symm.trans bias)
    obtain ⟨rest, inputs', _⟩ := weighted.inputs
    exact ⟨_, .one hp' written weighted' (takes absorbs scaled), gone, collapse.operators_host,
      kind, operands', collapse.outputs_eq, shape.trans
        (Outline.shape_congr (read (by rw [inputs']; simp))), weights', biases⟩
  · obtain ⟨chain, gone', hp', kind₀, inputs₀, outputs₀, shape₀, weights₀, biases₀⟩ := folded
    cases hp.symm.trans hp'
    cases written.symm.trans outputs₀
    obtain ⟨k, x, _⟩ := host
    cases kind₀
    -- The operands of the host are those that were put together before.
    obtain ⟨_, _, _, _⟩ := operands
    cases weighted with
    | plain inputs => cases inputs.symm.trans inputs₀
    | biased b inputs weights bias =>
      cases inputs.symm.trans inputs₀
      cases weights.symm.trans weights₀
      cases bias.symm.trans biases₀
      refine ⟨_, .snoc chain (takes absorbs scaled), fun c hc => ?_, collapse.operators_host,
        kind, operands', collapse.outputs_eq, shape.trans shape₀, weights', biases⟩
      rcases List.mem_append.1 hc with earlier | last
      · exact collapse.operators_none hp (gone' c earlier)
      · exact gone c last

end

section

variable {g : Graph α} {O O' : Outline α} {rank first : OperatorId → Nat} {o : OperatorId}
  (linked : g.Linked) (sound : g.outline.Sound rank)
  (change : AffineChange rank g.outline o O') (h : O.FoldedInto g.outline)

include linked sound change h

/-- What the host computed for its scale and shift goes, and other computed values are read on. -/
theorem AffineChange.folds_inner {c : OperatorId} {u : VariableId} (read : O.Reads c u)
    (unset : O.payload? u = none) : O'.Reads c u ∨ ∀ q, ¬O'.Writes q u := by
  obtain ⟨p, producer, fused, w, hp, collapse, absorbs, absorbed, _⟩ := change
  obtain ⟨op, activation, v, s, b, _, _, operands, _, _, _, ho, affine, inputs, scale_eq, shift_eq,
    written, weighted, _, _, operands', _⟩ := id absorbed
  have ne : p ≠ o := absorbed.host_ne hp absorbs
  have scale : g.outline.payload? s ≠ none := by rw [scale_eq]; exact (nomatch ·)
  have shift : g.outline.payload? b ≠ none := by rw [shift_eq]; exact (nomatch ·)
  obtain ⟨differ, link⟩ := collapse.affine_link linked sound hp ne ho inputs scale shift written
  rcases h.inner c u read unset with still | unwritten
  · by_cases hc : c ∈ p :: [o]
    · rcases List.mem_pair.1 hc with rfl | rfl
      · refine .inl ⟨fused, collapse.operators_host, ?_⟩
        rw [operands', h.input_eq hp weighted read unset]
        exact List.mem_cons_self
      · refine .inr fun q written' => ?_
        have before : O.Unchanged g.outline c := h.unchanged ho affine
        have hu : u ∈ op.inputs := (Outline.reads_iff ho).1 still
        have unset' : g.outline.payload? u = none :=
          (Outline.payload?_congr (before.operands u read)).trans unset
        have first : u ≠ s := fun e => scale (e ▸ unset')
        have second : u ≠ b := fun e => shift (e ▸ unset')
        obtain rfl : u = v := by simpa [inputs, first, second] using hu
        rcases collapse.writes written' with ⟨_, same⟩ | ⟨other, written'⟩
        · exact differ same
        · exact other (linked.writer_unique link.writes written' ▸ List.mem_cons_self)
    · exact .inl (collapse.reads_other hc still)
  · refine .inr fun q written' => ?_
    rcases collapse.writes written' with ⟨_, rfl⟩ | ⟨_, written'⟩
    · exact unwritten o collapse.last_writes
    · exact unwritten q written'

variable (start : O.Sound first)

include start

/-- The two operators of a step have taken up a chain after it, and all others what they had. -/
theorem AffineChange.folds_each (q : OperatorId) : O.Unchanged O' q ∨
    ∃ p os host, (q = p ∨ q ∈ os) ∧ O.Folded O' p os host := by
  obtain ⟨p, producer, fused, w, hp, collapse, absorbs, absorbed, _⟩ := change
  obtain ⟨op, activation, _, _, _, _, _, _, _, _, _, ho, affine, _⟩ := id absorbed
  obtain ⟨started, longer⟩ := absorbed.chain linked sound hp collapse start h absorbs
  by_cases hq : q ∈ p :: [o]
  · have taken : ∃ os host, O.Folded O' p (os ++ [o]) host := by
      rcases h.cases_live hp with same | ⟨os, host, folded⟩
      · exact ⟨[], started same⟩
      · exact ⟨os, longer os host folded⟩
    obtain ⟨os, host, folded⟩ := taken
    refine .inr ⟨p, _, host, (List.mem_pair.1 hq).imp_right ?_, folded⟩
    rintro rfl
    exact List.mem_append_right os List.mem_cons_self
  · rcases h.each q with same | ⟨p', os, host, hq', folded⟩
    · exact .inl (same.trans (collapse.unchanged linked hq))
    · by_cases e : p' = p
      · subst e
        obtain ⟨host', folded'⟩ := longer os host folded
        exact .inr ⟨p', _, host', hq'.imp_right (List.mem_append_left [o]), folded'⟩
      · obtain ⟨chain, gone, live, kind, _⟩ := id folded
        have other : p' ∉ p :: [o] := fun mem => by
          rcases List.mem_pair.1 mem with rfl | rfl
          · exact e rfl
          · cases ho.symm.trans live
            exact chain.kind_ne 1 activation (kind.symm.trans affine)
        exact .inr ⟨p', os, host, hq', folded.trans (collapse.unchanged linked other)
          fun c hc => collapse.operators_none hp (gone c hc)⟩

theorem AffineChange.folds : O.FoldedInto O' where
  outputs := by
    obtain ⟨p, producer, fused, w, hp, collapse, _⟩ := change
    exact collapse.outputs.trans h.outputs
  each := change.folds_each linked sound h start
  inner _ _ := change.folds_inner linked sound h

end

/-! ## Where nothing is left to do -/

namespace Outline

variable {O O' : Outline α} {first rank : OperatorId → Nat} {p o : OperatorId}
  {os : List OperatorId} {channels : Nat} {host host' : AffineHost α} (h : O.FoldedInto O')
  (start : O.Sound first) (sound : O'.Sound rank) (quiet : ∀ q, AffineQuiet O' q)

include h start sound quiet

/-- An operator that is left takes up nothing more. -/
theorem FoldedInto.not_takesUp {producer : Operator α} (hp : O'.operators p = some producer)
    (outputs : producer.outputs = [host.result]) (absorbs : absorbsAffine producer.kind = true)
    (constants : ∀ u ∈ producer.inputs.tail, O'.payload? u ≠ none) :
    ¬O.TakesUp channels o host host' := by
  intro takes
  obtain ⟨_, once, inner, live, affine, inputs, _, scale, shift⟩ := takes
  have written : O'.Writes p _ := ⟨producer, hp, by rw [outputs]; exact List.mem_singleton.2 rfl⟩
  have unset := sound.computed written
  rcases h.each o with same | ⟨q, os, host, rfl | mem, folded⟩
  · have live' := same.operator.trans live
    have read {u : VariableId} (hu : u ∈ [_, _, _]) := same.operands u ⟨_, live, inputs ▸ hu⟩
    refine quiet o _ p producer _ ⟨written, ⟨?_, fun c read => ?_⟩, h.outputs ▸ inner⟩ hp live'
      ⟨⟨_, affine⟩, absorbs, fun u hu => ?_, constants⟩
    · obtain ⟨⟨op, ho, count⟩, _⟩ := once
      exact ⟨op, same.operator.trans ho, count⟩
    · exact once.2 c (h.reads_of unset read)
    · rw [inputs] at hu
      rw [payload?_congr (read (List.mem_cons_of_mem _ hu))]
      rcases List.mem_pair.1 hu with rfl | rfl
      · rw [scale]
        exact (nomatch ·)
      · rw [shift]
        exact (nomatch ·)
  · obtain ⟨chain⟩ := folded
    obtain ⟨producer', _, live', absorbs', _⟩ := chain.start
    cases live.symm.trans live'
    exact absorbs_not_axiswise absorbs' 1 _ affine
  · rcases h.inner o _ once.reads (h.unset_of start written) with ⟨_, ho, _⟩ | unwritten
    · obtain ⟨_, gone⟩ := folded
      cases ho.symm.trans (gone o mem)
    · exact unwritten p written

/-- Every chain has been taken up, with what follows it. -/
theorem FoldedInto.settled (chain : O.AffineChain p os host) :
    ∃ more host', O.Folded O' p (os ++ more) host' := by
  induction chain with
  | @one producer operands _ v o _ live outputs weighted takes =>
    obtain ⟨absorbs, once, _⟩ := id takes
    rcases h.each p with same | ⟨q, os, host, rfl | mem, folded⟩
    · refine absurd takes (h.not_takesUp start sound quiet (same.operator.trans live) outputs
        absorbs fun u hu => ?_)
      obtain ⟨rest, inputs, constants⟩ := weighted.inputs
      rw [payload?_congr (same.operands u ⟨_, live, List.mem_of_mem_tail hu⟩)]
      exact constants u (by rwa [inputs] at hu)
    · obtain ⟨chain⟩ := id folded
      obtain ⟨o', more, rfl, once'⟩ := chain.first live outputs
      cases once.2 o' once'.reads
      exact ⟨more, host, folded⟩
    · obtain ⟨chain⟩ := folded
      obtain ⟨op, activation, live', affine⟩ := chain.member mem
      cases live.symm.trans live'
      exact absurd affine (absorbs_not_axiswise absorbs 1 activation)
  | @snoc os o _ _ _ earlier takes ih =>
    obtain ⟨more, host, folded⟩ := ih
    obtain ⟨chain, _, live, kind, inputs, outputs, _, weights, biases⟩ := id folded
    cases more with
    | nil =>
      rw [List.append_nil] at chain
      cases chain.unique earlier
      refine absurd takes (h.not_takesUp start sound quiet live outputs ?_ fun u hu => ?_)
      · obtain ⟨absorbs⟩ := takes
        exact kind ▸ absorbs
      · rw [inputs] at hu
        rcases List.mem_pair.1 hu with rfl | rfl
        · rw [weights]
          exact (nomatch ·)
        · rw [biases]
          exact (nomatch ·)
    | cons o' more =>
      obtain ⟨_, once, _⟩ := takes
      cases once.2 o' (earlier.next chain).reads
      exact ⟨more, host, by simpa using folded⟩

end Outline

end TensorGraph
