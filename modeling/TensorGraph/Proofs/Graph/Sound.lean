import TensorGraph.Proofs.Edit.Variables
import TensorGraph.Proofs.Graph.Order
import TensorGraph.Proofs.Operator.OutputShape

/-!
# TensorGraph.Proofs.Graph.Sound

What a graph that passes its checks says about its operators.

* `Outline.Sound`: operators have the shapes that their kinds give them, every value that is read
  has a source, every result has a use, and dependencies follow ranks.
* `check_iff`: a linked graph with free inputs passes its checks exactly when its outline is sound
  and nothing in it is unused.
* `pruned_sound`: so pruning a sound graph makes it pass.
-/

namespace TensorGraph

variable {α : Type}

namespace Outline

/-- Shape of a tensor; that of a dead one is empty. -/
def shape (O : Outline α) (v : VariableId) : Shape :=
  match O.tensors v with
  | some t => t.shape
  | none => []

def payload? (O : Outline α) (v : VariableId) : Option (Array α) := (O.tensors v).bind (·.payload)

theorem shape_of {O : Outline α} {v : VariableId} {t : Tensor α} (h : O.tensors v = some t) :
    O.shape v = t.shape := by
  simp only [shape, h]

theorem payload?_of {O : Outline α} {v : VariableId} {t : Tensor α} (h : O.tensors v = some t) :
    O.payload? v = t.payload := by
  simp only [payload?, h, Option.bind_some]

theorem shape_congr {O O' : Outline α} {v : VariableId} (h : O'.tensors v = O.tensors v) :
    O'.shape v = O.shape v := by
  rw [shape, shape, h]

theorem payload?_congr {O O' : Outline α} {v : VariableId} (h : O'.tensors v = O.tensors v) :
    O'.payload? v = O.payload? v := by
  rw [payload?, payload?, h]

theorem live_of_payload {O : Outline α} {v : VariableId} (h : O.payload? v ≠ none) : O.Live v := by
  cases e : O.tensors v with
  | some t => exact ⟨t, e⟩
  | none => simp [payload?, e] at h

theorem reads_iff {O : Outline α} {o : OperatorId} {op : Operator α}
    (ho : O.operators o = some op) {v : VariableId} : O.Reads o v ↔ v ∈ op.inputs :=
  ⟨fun ⟨_, e, hv⟩ => by cases ho.symm.trans e; exact hv, fun hv => ⟨op, ho, hv⟩⟩

theorem writes_iff {O : Outline α} {o : OperatorId} {op : Operator α}
    (ho : O.operators o = some op) {v : VariableId} : O.Writes o v ↔ v ∈ op.outputs :=
  ⟨fun ⟨_, e, hv⟩ => by cases ho.symm.trans e; exact hv, fun hv => ⟨op, ho, hv⟩⟩

variable [Scalar α]

structure Sound (rank : OperatorId → Nat) (O : Outline α) : Prop where
  result : ∀ {o op}, O.operators o = some op → ∃ v, op.outputs = [v] ∧
    op.kind.outputShape (op.inputs.map O.shape) = .ok (O.shape v)
  computed : ∀ {o v}, O.Writes o v → O.payload? v = none
  positive : ∀ v, 0 ∉ O.shape v
  inputs_free : ∀ {v}, v ∈ O.inputs → O.payload? v = none ∧ ∀ o, ¬O.Writes o v
  sourced : ∀ {v}, (∃ o, O.Reads o v) ∨ v ∈ O.outputs →
    O.payload? v ≠ none ∨ (∃ o, O.Writes o v) ∨ v ∈ O.inputs
  used : ∀ {o v}, O.Writes o v → (∃ c, O.Reads c v) ∨ v ∈ O.outputs
  ranked : O.Ranked rank

/-- An operator does not read what it, or a later one, writes. -/
theorem Sound.not_reads {rank : OperatorId → Nat} {O : Outline α} (h : O.Sound rank)
    {a b : OperatorId} {v : VariableId} (write : O.Writes a v) (le : rank b ≤ rank a) :
    ¬O.Reads b v := fun read => by
  have := h.ranked a b ⟨v, write, read⟩
  omega

section

variable {rank : OperatorId → Nat} {O : Outline α} {o : OperatorId} {op : Operator α}

theorem Sound.unary (h : O.Sound rank) (rule : Shape → ShapeCheck Shape)
    (ho : O.operators o = some op)
    (kind : ∀ shapes, op.kind.outputShape shapes = unaryShape shapes rule) :
    ∃ x w, op.inputs = [x] ∧ op.outputs = [w] ∧ rule (O.shape x) = .ok (O.shape w) := by
  obtain ⟨w, hw, typed⟩ := h.result ho
  rw [kind] at typed
  obtain ⟨s, hs, result⟩ := unaryShape_ok_iff.1 typed
  obtain ⟨x, rest, hx, rfl, hrest⟩ := List.map_eq_cons_iff.1 hs
  rw [List.map_eq_nil_iff] at hrest
  exact ⟨x, w, by rw [hx, hrest], hw, result⟩

theorem Sound.elementwiseAdd (h : O.Sound rank) (ho : O.operators o = some op)
    {fused : Option (Activation α)} (kind : op.kind = .elementwiseAdd fused) :
    ∃ w, op.outputs = [w] ∧ 2 ≤ op.inputs.length ∧ ∀ v ∈ op.inputs, O.shape v = O.shape w := by
  obtain ⟨w, hw, typed⟩ := h.result ho
  rw [kind] at typed
  obtain ⟨length, same⟩ := elementwiseAddShape_ok_iff.1 typed
  rw [List.length_map] at length
  exact ⟨w, hw, length, fun v hv => same _ (List.mem_map_of_mem hv)⟩

theorem Sound.axiswiseAffine (h : O.Sound rank) (ho : O.operators o = some op) {axis : Nat}
    {fused : Option (Activation α)} (kind : op.kind = .axiswiseAffine axis fused) :
    ∃ x s b w dim, op.inputs = [x, s, b] ∧ op.outputs = [w] ∧ O.shape x = O.shape w ∧
      O.shape s = [dim] ∧ O.shape b = [dim] ∧ (O.shape w)[axis]? = some dim := by
  obtain ⟨w, hw, typed⟩ := h.result ho
  rw [kind] at typed
  obtain ⟨dim, hdim, shapes⟩ := axiswiseAffineShape_ok_iff.1 typed
  obtain ⟨x, _, inputs, hx, shapes⟩ := List.map_eq_cons_iff.1 shapes
  obtain ⟨s, _, rfl, hs, shapes⟩ := List.map_eq_cons_iff.1 shapes
  obtain ⟨b, _, rfl, hb, shapes⟩ := List.map_eq_cons_iff.1 shapes
  rw [List.map_eq_nil_iff] at shapes
  subst shapes
  exact ⟨x, s, b, w, dim, inputs, hw, hx, hs, hb, hdim⟩

theorem Sound.batchNormalization (h : O.Sound rank) (ho : O.operators o = some op) {eps : α}
    (kind : op.kind = .batchNormalization eps) :
    ∃ x a b c d w channels, op.inputs = [x, a, b, c, d] ∧ op.outputs = [w] ∧
      O.shape x = O.shape w ∧ [a, b, c, d].map O.shape = List.replicate 4 [channels] ∧
      (O.shape w)[1]? = some channels := by
  obtain ⟨w, hw, typed⟩ := h.result ho
  rw [kind] at typed
  obtain ⟨_, channels, hdim, shapes⟩ := batchNormalizationShape_ok_iff.1 typed
  obtain ⟨x, _, inputs, hx, shapes⟩ := List.map_eq_cons_iff.1 shapes
  obtain ⟨a, _, rfl, ha, shapes⟩ := List.map_eq_cons_iff.1 shapes
  obtain ⟨b, _, rfl, hb, shapes⟩ := List.map_eq_cons_iff.1 shapes
  obtain ⟨c, _, rfl, hc, shapes⟩ := List.map_eq_cons_iff.1 shapes
  obtain ⟨d, _, rfl, hd, shapes⟩ := List.map_eq_cons_iff.1 shapes
  rw [List.map_eq_nil_iff] at shapes
  subst shapes
  refine ⟨x, a, b, c, d, w, channels, inputs, hw, hx, ?_, hdim⟩
  simp [ha, hb, hc, hd, List.replicate]

end

end Outline

namespace Graph

variable {g : Graph α}

theorem shape_eq (g : Graph α) (v : VariableId) : g.shape v = g.outline.shape v := by
  rw [shape, Outline.shape, outline_tensors]
  cases g.variableAt? v <;> rfl

theorem payload?_eq (g : Graph α) (v : VariableId) : g.payload? v = g.outline.payload? v := by
  rw [payload?, Outline.payload?, outline_tensors]
  cases g.variableAt? v <;> rfl

theorem isConstant_iff {v : VariableId} : g.isConstant v = true ↔ g.outline.payload? v ≠ none := by
  rw [isConstant, payload?_eq, Option.isSome_iff_ne_none]

theorem shapes_eq (g : Graph α) (vs : List VariableId) :
    vs.map g.shape = vs.map g.outline.shape :=
  List.map_congr_left fun v _ => shape_eq g v

theorem payload?_size (h : g.Linked) {v : VariableId} {d : Array α}
    (hd : g.outline.payload? v = some d) : d.size = (g.outline.shape v).size := by
  obtain ⟨t, ht, hd⟩ := Option.bind_eq_some_iff.1 hd
  obtain ⟨x, hx, rfl⟩ := Option.map_eq_some_iff.1 ht
  rw [Outline.shape_of ht]
  exact h.payload_size hx d hd

theorem Linked.consumers_ne_nil (h : g.Linked) {v : VariableId} {x : Variable α}
    (hx : g.variableAt? v = some x) : x.consumers ≠ [] ↔ ∃ o, g.outline.Reads o v := by
  rw [← List.isEmpty_eq_false_iff, List.isEmpty_eq_false_iff_exists_mem]
  exact exists_congr (h.mem_consumers hx)

theorem Linked.producer_ne_none (h : g.Linked) {v : VariableId} {x : Variable α}
    (hx : g.variableAt? v = some x) : x.producer ≠ none ↔ ∃ o, g.outline.Writes o v := by
  rw [Option.ne_none_iff_exists']
  exact exists_congr (h.producer_iff hx)

variable [Scalar α]

theorem checkOperator_iff {op : Operator α} : g.checkOperator op = .ok ⟨⟩ ↔ ∃ v,
    op.outputs = [v] ∧
      op.kind.outputShape (op.inputs.map g.outline.shape) = .ok (g.outline.shape v) := by
  unfold checkOperator inferredShape
  rw [shapes_eq]
  cases op.kind.outputShape (op.inputs.map g.outline.shape) with
  | error flaw =>
    constructor
    · intro failed
      cases failed
    · rintro ⟨v, _, failed⟩
      cases failed
  | ok s =>
    dsimp only
    rw [except_ok_bind]
    rcases op.outputs with _ | ⟨v, _ | ⟨u, rest⟩⟩
    · constructor
      · intro failed
        cases failed
      · rintro ⟨v, e, _⟩
        cases e
    · dsimp only
      rw [ensure_ok_iff, beq_iff_eq, shape_eq]
      constructor
      · rintro rfl
        exact ⟨v, rfl, rfl⟩
      · rintro ⟨w, e, shape⟩
        cases e
        exact (Except.ok.inj shape).symm
    · constructor
      · intro failed
        cases failed
      · rintro ⟨v, e, _⟩
        cases e

theorem check_ok_iff (h : g.Linked) : g.check = .ok ⟨⟩ ↔ g.validate = .ok ⟨⟩ ∧
    ∀ o op, g.operatorAt? o = some op → g.checkOperator op = .ok ⟨⟩ := by
  unfold check
  rw [except_check_bind_ok_iff, forM_ok_iff]
  refine and_congr_right fun _ => ⟨fun all o op ho => all op ((mem_liveOperators h).2 ?_), ?_⟩
  · rw [h.operator_id ho, ho]
  · intro all op hop
    exact all op.id op ((mem_liveOperators h).1 hop)

theorem sound_of_check (h : g.Linked) (checked : g.check = .ok ⟨⟩)
    (free : ∀ v ∈ g.inputs, g.payload? v = none ∧ g.producer? v = none) :
    (∃ rank, g.outline.Sound rank) ∧ ∀ v, g.outline.Live v → g.outline.Needed v := by
  obtain ⟨valid, operators⟩ := (check_ok_iff h).1 checked
  obtain ⟨records, acyclic⟩ := (validate_iff h).1 valid
  obtain ⟨rank, ranked⟩ := (isCyclic_iff h).1 acyclic
  refine ⟨⟨rank, ?_, ?_, ?_, ?_, ?_, ?_, ranked⟩, ?_⟩
  · intro o op ho
    exact checkOperator_iff.1 (operators o op ho)
  · intro o v written
    obtain ⟨x, hx⟩ := live_iff.1 (h.output_live written)
    rw [Outline.payload?_of (outline_tensors_of hx)]
    exact (records v x hx).unproduced ((h.producer_ne_none hx).2 ⟨o, written⟩)
  · intro v
    cases hx : g.variableAt? v with
    | none => simp [Outline.shape, outline_tensors, hx]
    | some x =>
      rw [Outline.shape_of (outline_tensors_of hx)]
      exact (records v x hx).positive
  · intro v hv
    obtain ⟨unset, unproduced⟩ := free v hv
    refine ⟨payload?_eq g v ▸ unset, fun o written => ?_⟩
    rw [(producer?_iff h).2 written] at unproduced
    cases unproduced
  · intro v hv
    have live : g.outline.Live v := hv.elim (fun ⟨o, read⟩ => h.input_live read) fun out =>
      h.designated_live (.inr out)
    obtain ⟨x, hx⟩ := live_iff.1 live
    rw [Outline.payload?_of (outline_tensors_of hx), ← h.producer_ne_none hx]
    rcases (records v x hx).sourced with produced | constant | input
    · exact .inr (.inl produced)
    · exact .inl constant
    · exact .inr (.inr (h.variable_id hx ▸ input))
  · intro o v written
    obtain ⟨x, hx⟩ := live_iff.1 (h.output_live written)
    rw [← h.consumers_ne_nil hx]
    rcases (records v x hx).used with read | out | input
    · exact .inl read
    · exact .inr (h.variable_id hx ▸ out)
    · have unproduced := (free v (h.variable_id hx ▸ input)).2
      rw [(producer?_iff h).2 written] at unproduced
      cases unproduced
  · intro v live
    obtain ⟨x, hx⟩ := live_iff.1 live
    rcases (records v x hx).used with read | out | input
    · exact .inr (.inl ((h.consumers_ne_nil hx).1 read))
    · exact .inr (.inr (.inr (h.variable_id hx ▸ out)))
    · exact .inr (.inr (.inl (h.variable_id hx ▸ input)))

theorem check_of_sound (h : g.Linked) {rank : OperatorId → Nat} (sound : g.outline.Sound rank)
    (needed : ∀ v, g.outline.Live v → g.outline.Needed v) : g.check = .ok ⟨⟩ := by
  refine (check_ok_iff h).2 ⟨(validate_iff h).2 ⟨fun v x hx => ?_, ?_⟩, fun o op ho => ?_⟩
  · have id := h.variable_id hx
    have payload : g.outline.payload? v = x.payload :=
      Outline.payload?_of (outline_tensors_of hx)
    have need := needed v (live_iff.2 ⟨x, hx⟩)
    refine ⟨fun produced => ?_, ?_, ?_, ?_⟩
    · obtain ⟨o, written⟩ := (h.producer_ne_none hx).1 produced
      exact payload.symm.trans (sound.computed written)
    · have := sound.positive v
      rwa [Outline.shape_of (outline_tensors_of hx)] at this
    · rw [h.producer_ne_none hx, id]
      have source (hv : (∃ o, g.outline.Reads o v) ∨ v ∈ g.outputs) :
          (∃ o, g.outline.Writes o v) ∨ x.payload ≠ none ∨ v ∈ g.inputs := by
        rcases sound.sourced hv with constant | rest
        · exact .inr (.inl (payload ▸ constant))
        · exact rest.imp_right .inr
      rcases need with written | read | input | out
      · exact .inl written
      · exact source (.inl read)
      · exact .inr (.inr input)
      · exact source (.inr out)
    · rw [h.consumers_ne_nil hx, id]
      rcases need with ⟨o, written⟩ | read | input | out
      · exact (sound.used written).imp_right .inl
      · exact .inl read
      · exact .inr (.inr input)
      · exact .inr (.inl out)
  · exact (isCyclic_iff h).2 ⟨rank, sound.ranked⟩
  · exact checkOperator_iff.2 (sound.result ho)

end Graph

section

variable {O : Outline α}

theorem Outline.pruned_tensors {v : VariableId} (hv : O.Needed v) :
    O.pruned.tensors v = O.tensors v := if_pos hv

theorem Outline.pruned_tensors_none {v : VariableId} (hv : ¬O.Needed v) :
    O.pruned.tensors v = none := if_neg hv

theorem Outline.pruned_shape {v : VariableId} (hv : O.Needed v) :
    O.pruned.shape v = O.shape v := shape_congr (pruned_tensors hv)

theorem Outline.pruned_payload? {v : VariableId} (hv : O.Needed v) :
    O.pruned.payload? v = O.payload? v := payload?_congr (pruned_tensors hv)

theorem Outline.payload?_of_pruned {v : VariableId} (hv : O.pruned.payload? v ≠ none) :
    O.payload? v ≠ none := by
  by_cases needed : O.Needed v
  · rwa [pruned_payload? needed] at hv
  · simp [payload?, pruned_tensors_none needed] at hv

/-- Pruning leaves needed tensors only. -/
theorem Outline.pruned_needed {v : VariableId} (hv : O.pruned.Live v) : O.pruned.Needed v := by
  by_contra unneeded
  have : ¬O.Needed v := unneeded
  obtain ⟨t, ht⟩ := hv
  rw [pruned_tensors_none this] at ht
  cases ht

variable [Scalar α]

/-- Whether an operator has the shapes of its kind depends on its own variables only. -/
theorem Outline.typed_congr {O' : Outline α} {op : Operator α}
    (same : ∀ v, v ∈ op.inputs ∨ v ∈ op.outputs → O'.tensors v = O.tensors v) :
    (∃ v, op.outputs = [v] ∧ op.kind.outputShape (op.inputs.map O'.shape) = .ok (O'.shape v)) ↔
      ∃ v, op.outputs = [v] ∧ op.kind.outputShape (op.inputs.map O.shape) = .ok (O.shape v) := by
  refine exists_congr fun v => and_congr_right fun outputs => ?_
  have shapes : op.inputs.map O'.shape = op.inputs.map O.shape :=
    List.map_congr_left fun w hw => shape_congr (same w (.inl hw))
  have written : v ∈ op.outputs := outputs ▸ List.mem_singleton.2 rfl
  rw [shapes, shape_congr (same v (.inr written))]

/-- An outline with other tensors is sound too if the needed ones are the same. -/
theorem Outline.Sound.congr {rank : OperatorId → Nat} {O' : Outline α} (h : O.Sound rank)
    (operators : O'.operators = O.operators) (inputs : O'.inputs = O.inputs)
    (outputs : O'.outputs = O.outputs) (same : ∀ v, O.Needed v → O'.tensors v = O.tensors v)
    (positive : ∀ v, 0 ∉ O'.shape v) : O'.Sound rank := by
  obtain ⟨tensors, _, _, _⟩ := O'
  cases operators
  cases inputs
  cases outputs
  have payload (v : VariableId) (hv : O.Needed v) :
      ({ O with tensors } : Outline α).payload? v = O.payload? v := payload?_congr (same v hv)
  constructor
  case result =>
    intro o op ho
    refine (typed_congr fun v hv => same v ?_).2 (h.result ho)
    rcases hv with read | written
    · exact .inr (.inl ⟨o, op, ho, read⟩)
    · exact .inl ⟨o, op, ho, written⟩
  case computed =>
    intro o v written
    rw [payload v (.inl ⟨o, written⟩)]
    exact h.computed written
  case positive => exact positive
  case inputs_free =>
    intro v hv
    rw [payload v (.inr (.inr (.inl hv)))]
    exact h.inputs_free hv
  case sourced =>
    intro v hv
    rw [payload v (.inr (hv.imp_right .inr))]
    exact h.sourced hv
  case used => exact h.used
  case ranked => exact h.ranked

/-- Pruning makes no outline sound that has no empty dimension anyway. -/
theorem Outline.pruned_sound_iff {rank : OperatorId → Nat} (positive : ∀ v, 0 ∉ O.shape v) :
    O.pruned.Sound rank ↔ O.Sound rank := by
  constructor
  · intro h
    exact h.congr rfl rfl rfl (fun v hv => (pruned_tensors (O := O) hv).symm) positive
  · intro h
    refine h.congr rfl rfl rfl (fun v hv => pruned_tensors hv) fun v => ?_
    by_cases hv : O.Needed v
    · exact (pruned_shape hv).symm ▸ positive v
    · show 0 ∉ O.pruned.shape v
      simp [shape, pruned_tensors_none hv]

theorem Outline.Sound.pruned {rank : OperatorId → Nat} (h : O.Sound rank) :
    O.pruned.Sound rank :=
  (pruned_sound_iff h.positive).2 h

/-- A pruned graph with the right shapes and free inputs is valid exactly when the graph before
pruning is sound. -/
theorem Graph.validate_pruned_iff {g : Graph α} (linked : g.Linked) (outline : g.outline = O.pruned)
    (typed : ∀ o op, O.operators o = some op → ∃ v, op.outputs = [v] ∧
      op.kind.outputShape (op.inputs.map O.shape) = .ok (O.shape v))
    (positive : ∀ v, 0 ∉ O.shape v)
    (free : ∀ v ∈ O.inputs, O.payload? v = none ∧ ∀ o, ¬O.Writes o v) :
    g.validate = .ok ⟨⟩ ↔ ∃ rank, O.Sound rank := by
  have sound_iff (rank : OperatorId → Nat) : g.outline.Sound rank ↔ O.Sound rank := by
    rw [outline]
    exact Outline.pruned_sound_iff positive
  constructor
  · intro valid
    have operators (o : OperatorId) (op : Operator α) (ho : g.operatorAt? o = some op) :
        g.checkOperator op = .ok ⟨⟩ := by
      have ho' : O.operators o = some op := by
        rw [← outline_operators, outline] at ho
        exact ho
      rw [checkOperator_iff, outline]
      refine (Outline.typed_congr fun v hv => Outline.pruned_tensors ?_).2 (typed o op ho')
      rcases hv with read | written
      · exact .inr (.inl ⟨o, op, ho', read⟩)
      · exact .inl ⟨o, op, ho', written⟩
    have inputs (v : VariableId) (hv : v ∈ g.inputs) :
        g.payload? v = none ∧ g.producer? v = none := by
      have hv' : v ∈ O.inputs := by
        rw [← outline_inputs, outline] at hv
        exact hv
      obtain ⟨unset, unwritten⟩ := free v hv'
      refine ⟨?_, ?_⟩
      · rw [payload?_eq, outline, Outline.pruned_payload? (.inr (.inr (.inl hv')))]
        exact unset
      · cases produced : g.producer? v with
        | none => rfl
        | some o =>
          have write := (producer?_iff linked).1 produced
          rw [outline] at write
          exact absurd write (unwritten o)
    obtain ⟨⟨rank, sound⟩, _⟩ :=
      sound_of_check linked ((check_ok_iff linked).2 ⟨valid, operators⟩) inputs
    exact ⟨rank, (sound_iff rank).1 sound⟩
  · rintro ⟨rank, sound⟩
    have needed (v : VariableId) (live : g.outline.Live v) : g.outline.Needed v := by
      rw [outline] at live ⊢
      exact Outline.pruned_needed live
    exact ((check_ok_iff linked).1 (check_of_sound linked ((sound_iff rank).2 sound) needed)).1

end

end TensorGraph
