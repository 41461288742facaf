import TensorGraph.Proofs.Graph.Reachable
import TensorGraph.Proofs.Graph.Sound

/-!
# TensorGraph.Proofs.Graph.Source

Where the values of variables come from: a payload, a producer, or the caller of an evaluation.

* `Graph.SingleSourced`: a constant has no producer, and a designated input has neither payload nor
  producer.
* `EditCall.AddsSource`: the calls that give a variable a second source and are not refused for it.
* `EditCall.singleSourced_iff`: of all calls that succeed, these and no others lose the property.
* `singleSourced_along_iff`: so a graph keeps it along calls exactly if none of these succeeds.
* `doublySourced_reachable`: they can succeed, both on constants and on designated inputs.
-/

namespace TensorGraph

variable {α : Type}

/-- An operator writes `v`. -/
def Outline.Written (O : Outline α) (v : VariableId) : Prop := ∃ o, O.Writes o v

/-- No variable has two of a payload, a producer and the designation as an input. -/
structure Outline.SingleSourced (O : Outline α) : Prop where
  constant : ∀ v, O.payload? v ≠ none → ¬O.Written v
  input_unset : ∀ v ∈ O.inputs, O.payload? v = none
  input_unwritten : ∀ v ∈ O.inputs, ¬O.Written v

namespace Outline

variable {O O' : Outline α}

/-- Taking sources away does no harm. -/
theorem SingleSourced.mono (h : O.SingleSourced)
    (payload : ∀ v, O'.payload? v ≠ none → O.payload? v ≠ none)
    (written : ∀ v, O'.Written v → O.Written v) (inputs : ∀ v ∈ O'.inputs, v ∈ O.inputs) :
    O'.SingleSourced where
  constant v hv w := h.constant v (payload v hv) (written v w)
  input_unset v hv := by
    by_contra set
    exact payload v set (h.input_unset v (inputs v hv))
  input_unwritten v hv w := h.input_unwritten v (inputs v hv) (written v w)

theorem setTensor_payload? {v w : VariableId} {t : Tensor α} :
    (O.setTensor v t).payload? w = if w = v then t.payload else O.payload? w := by
  rw [payload?, setTensor_tensors]
  split
  · rfl
  · rfl

/-- What is written when an operator is replaced or taken out. -/
theorem setOperator_written {o : OperatorId} {op? : Option (Operator α)} {v : VariableId} :
    (O.setOperator o op?).Written v ↔
      (∃ op ∈ op?, v ∈ op.outputs) ∨ ∃ p, p ≠ o ∧ O.Writes p v := by
  constructor
  · rintro ⟨p, op, hp, hv⟩
    rw [setOperator_operators] at hp
    split at hp
    · exact .inl ⟨op, hp, hv⟩
    · next ne => exact .inr ⟨p, ne, op, hp, hv⟩
  · rintro (⟨op, hop, hv⟩ | ⟨p, ne, op, hp, hv⟩)
    · exact ⟨o, op, by rw [setOperator_operators, if_pos rfl]; exact hop, hv⟩
    · exact ⟨p, op, by rw [setOperator_operators, if_neg ne]; exact hp, hv⟩

/-- An operator may get other operands and another kind. -/
theorem SingleSourced.setOperator (h : O.SingleSourced) {o : OperatorId} {op op' : Operator α}
    (ho : O.operators o = some op) (same : op'.outputs = op.outputs) :
    (O.setOperator o (some op')).SingleSourced := by
  refine h.mono (fun v hv => hv) (fun v hv => ?_) fun v hv => hv
  rcases setOperator_written.1 hv with ⟨_, ⟨⟩, hv⟩ | ⟨p, _, written⟩
  · exact ⟨o, op, ho, same ▸ hv⟩
  · exact ⟨p, written⟩

/-- An operator may come to write variables that had no source, and no others. -/
theorem SingleSourced.written_iff (h : O.SingleSourced) {vs : List VariableId}
    (tensors : O'.tensors = O.tensors) (inputs : O'.inputs = O.inputs)
    (added : ∀ v ∈ vs, O'.Written v) (written : ∀ v, O'.Written v → v ∈ vs ∨ O.Written v) :
    O'.SingleSourced ↔ ∀ v ∈ vs, O.payload? v = none ∧ v ∉ O.inputs := by
  have payload (v : VariableId) : O'.payload? v = O.payload? v := by
    rw [payload?, payload?, tensors]
  constructor
  · intro h' v hv
    constructor
    · by_contra set
      exact h'.constant v (payload v ▸ set) (added v hv)
    · intro input
      exact h'.input_unwritten v (inputs ▸ input) (added v hv)
  · intro free
    constructor
    case constant =>
      intro v set w
      rw [payload] at set
      rcases written v w with hv | w
      · exact set (free v hv).1
      · exact h.constant v set w
    case input_unset =>
      intro v hv
      rw [payload]
      exact h.input_unset v (inputs ▸ hv)
    case input_unwritten =>
      intro v hv w
      rw [inputs] at hv
      rcases written v w with hw | w
      · exact (free v hw).2 hv
      · exact h.input_unwritten v hv w

/-- A tensor that nothing writes may get a payload if it is no input. -/
theorem SingleSourced.setPayload_iff (h : O.SingleSourced) {v : VariableId} {t : Tensor α}
    (set : t.payload ≠ none) (unwritten : ¬O.Written v) :
    (O.setTensor v t).SingleSourced ↔ v ∉ O.inputs := by
  constructor
  · intro h' input
    have unset := h'.input_unset v input
    rw [setTensor_payload?, if_pos rfl] at unset
    exact set unset
  · intro other
    constructor
    case constant =>
      intro w hw written
      rw [setTensor_payload?] at hw
      split at hw
      · next e => exact unwritten (e ▸ written)
      · exact h.constant w hw written
    case input_unset =>
      intro w hw
      have ne : w ≠ v := fun e => other (e ▸ hw)
      rw [setTensor_payload?, if_neg ne]
      exact h.input_unset w hw
    case input_unwritten => exact h.input_unwritten

end Outline

/-- A constant has no producer, and a designated input has neither payload nor producer. -/
def Graph.SingleSourced (g : Graph α) : Prop :=
  ∀ v x, g.variableAt? v = some x → (x.payload ≠ none → x.producer = none) ∧
    (v ∈ g.inputs → x.payload = none ∧ x.producer = none)

/-- The call gives a source to a variable that has one: a payload to a designated input, or a
producer to a designated input or to a constant. (To a constant `addOperator` gives none.) -/
def EditCall.AddsSource (g : Graph α) : EditCall α → Prop
  | .setPayload v _ => v ∈ g.inputs
  | .addOperator _ _ outputs => ∃ v ∈ outputs, v ∈ g.inputs
  | .rebindOutput _ _ new => g.isConstant new = true ∨ new ∈ g.inputs
  | _ => False

open TensorGraph.Graph Edit

namespace Graph

variable {g : Graph α}

theorem Linked.unwritten_iff (h : g.Linked) {v : VariableId} {x : Variable α}
    (hx : g.variableAt? v = some x) : x.producer = none ↔ ¬g.outline.Written v := by
  rw [← not_iff_not, Classical.not_not]
  exact h.producer_ne_none hx

theorem Linked.singleSourced_iff (h : g.Linked) :
    g.SingleSourced ↔ g.outline.SingleSourced := by
  constructor
  · intro single
    have record {v : VariableId} (live : g.outline.Live v) :
        ∃ x : Variable α, g.outline.payload? v = x.payload ∧
          (x.producer = none ↔ ¬g.outline.Written v) ∧ (x.payload ≠ none → x.producer = none) ∧
          (v ∈ g.inputs → x.payload = none ∧ x.producer = none) := by
      obtain ⟨x, hx⟩ := live_iff.1 live
      exact ⟨x, Outline.payload?_of (outline_tensors_of hx), h.unwritten_iff hx, single v x hx⟩
    constructor
    case constant =>
      intro v set
      obtain ⟨x, payload, unwritten, constant, _⟩ := record (Outline.live_of_payload set)
      exact unwritten.1 (constant (payload ▸ set))
    case input_unset =>
      intro v hv
      obtain ⟨x, payload, _, _, input⟩ := record (h.designated_live (.inl hv))
      exact payload.trans (input hv).1
    case input_unwritten =>
      intro v hv
      obtain ⟨x, _, unwritten, _, input⟩ := record (h.designated_live (.inl hv))
      exact unwritten.1 (input hv).2
  · intro single v x hx
    have payload : g.outline.payload? v = x.payload := Outline.payload?_of (outline_tensors_of hx)
    rw [h.unwritten_iff hx, ← payload]
    exact ⟨single.constant v, fun hv => ⟨single.input_unset v hv, single.input_unwritten v hv⟩⟩

theorem singleSourced_empty : (empty : Graph α).SingleSourced := fun _ _ hx => nomatch hx

/-- Nothing names the next variable. -/
theorem Linked.fresh_unnamed (h : g.Linked) :
    ¬g.outline.Written g.freshVariable ∧ g.freshVariable ∉ g.inputs := by
  have dead : ¬g.outline.Live g.freshVariable := fun ⟨t, ht⟩ => by
    rw [outline_tensors_fresh] at ht
    cases ht
  exact ⟨fun ⟨_, write⟩ => dead (h.output_live write), fun hv => dead (h.designated_live (.inl hv))⟩

end Graph

variable {g : Graph α}

theorem Graph.setTensor_fresh_singleSourced (h : g.Linked) (single : g.outline.SingleSourced)
    (t : Tensor α) : (g.outline.setTensor g.freshVariable t).SingleSourced := by
  obtain ⟨unwritten, other⟩ := h.fresh_unnamed
  cases payload : t.payload with
  | none =>
    refine single.mono (fun v hv => ?_) (fun v hv => hv) fun v hv => hv
    rw [Outline.setTensor_payload?] at hv
    split at hv
    · exact absurd payload hv
    · exact hv
  | some d =>
    exact (single.setPayload_iff (payload ▸ Option.some_ne_none d) unwritten).2 other

/-- Of the calls that have an effect on a single-sourced graph, exactly those that add a source to
a variable with a source leave one that is not single-sourced. -/
theorem EditCall.effect_singleSourced_iff (h : g.Linked) (single : g.outline.SingleSourced)
    {c : EditCall α} {O : Outline α} (effect : c.Effect g O) :
    O.SingleSourced ↔ ¬c.AddsSource g := by
  -- All but three calls never add a source to a variable that has one.
  have harmless (kept : O.SingleSourced) (never : c.AddsSource g ↔ False) :
      O.SingleSourced ↔ ¬c.AddsSource g := by
    rw [never]
    exact iff_of_true kept not_false
  cases c with
  | addVariable name shape =>
    cases effect
    exact harmless (setTensor_fresh_singleSourced h single _) Iff.rfl
  | addConstant name shape payload =>
    obtain ⟨_, rfl⟩ := effect
    exact harmless (setTensor_fresh_singleSourced h single _) Iff.rfl
  | setPayload v payload =>
    obtain ⟨t, _, _, free, rfl⟩ := effect
    exact single.setPayload_iff (Option.some_ne_none payload) fun ⟨o, write⟩ => free o write
  | addOperator kind inputs outputs =>
    obtain ⟨addable, rfl⟩ := effect
    have unset (v : VariableId) (hv : v ∈ outputs) : g.outline.payload? v = none := by
      obtain ⟨⟨x, hx, _, varies⟩, _⟩ := addable.outputs_free v hv
      rw [Outline.payload?_of (outline_tensors_of hx)]
      exact Option.isSome_eq_false_iff.1 varies |> Option.isNone_iff_eq_none.1
    refine Iff.trans (Outline.SingleSourced.written_iff single rfl rfl
      (fun v (hv : v ∈ outputs) => Outline.setOperator_written.2 (.inl ⟨_, rfl, hv⟩))
      fun v hv => ?_) ?_
    · rcases Outline.setOperator_written.1 hv with ⟨_, ⟨⟩, hv⟩ | ⟨p, _, write⟩
      · exact .inl hv
      · exact .inr ⟨p, write⟩
    · constructor
      · rintro free ⟨v, hv, input⟩
        exact (free v hv).2 input
      · intro none v hv
        exact ⟨unset v hv, fun input => none ⟨v, hv, input⟩⟩
  | designateInputs vs =>
    obtain ⟨free, rfl⟩ := effect
    have record (v : VariableId) (hv : v ∈ vs) :
        g.outline.payload? v = none ∧ ¬g.outline.Written v := by
      obtain ⟨x, hx, unproduced, unset⟩ := free v hv
      exact ⟨(Outline.payload?_of (outline_tensors_of hx)).trans unset,
        (h.unwritten_iff hx).1 unproduced⟩
    exact harmless ⟨single.constant, fun v hv => (record v hv).1, fun v hv => (record v hv).2⟩
      Iff.rfl
  | designateOutputs vs =>
    obtain ⟨_, rfl⟩ := effect
    exact harmless ⟨single.constant, single.input_unset, single.input_unwritten⟩ Iff.rfl
  | removeOperator o =>
    obtain ⟨_, rfl⟩ := effect
    refine harmless (single.mono (fun v hv => hv) (fun v hv => ?_) fun v hv => hv) Iff.rfl
    rcases Outline.setOperator_written.1 hv with ⟨_, ⟨⟩, _⟩ | ⟨p, _, write⟩
    exact ⟨p, write⟩
  | rebindOutput o old new =>
    obtain ⟨op, ho, hold, live, free, rfl⟩ := effect
    have nodup := h.outputs_nodup ho
    have constant : g.isConstant new = true ↔ g.outline.payload? new ≠ none := isConstant_iff
    refine Iff.trans (Outline.SingleSourced.written_iff single rfl rfl
      (fun v (hv : v ∈ [new]) => ?_) fun v hv => ?_) ?_
    · refine Outline.setOperator_written.2 (.inl ⟨_, rfl, ?_⟩)
      exact (mem_replaceFirst new hold nodup v).2 (.inl (List.mem_singleton.1 hv))
    · rcases Outline.setOperator_written.1 hv with ⟨_, ⟨⟩, hv⟩ | ⟨p, _, write⟩
      · rcases (mem_replaceFirst new hold nodup v).1 hv with rfl | ⟨_, hv⟩
        · exact .inl (List.mem_singleton_self v)
        · exact .inr ⟨o, op, ho, hv⟩
      · exact .inr ⟨p, write⟩
    · rw [List.forall_mem_singleton, AddsSource, constant, not_or, Classical.not_not]
      rfl
  | replaceInput o old new =>
    obtain ⟨op, ho, _, _, rfl⟩ := effect
    exact harmless (single.setOperator ho rfl) Iff.rfl
  | setInputs o inputs =>
    obtain ⟨op, ho, _, rfl⟩ := effect
    exact harmless (single.setOperator ho rfl) Iff.rfl
  | setKind o kind =>
    obtain ⟨op, ho, rfl⟩ := effect
    exact harmless (single.setOperator ho rfl) Iff.rfl
  | prune =>
    cases effect
    exact harmless (single.mono (fun v => Outline.payload?_of_pruned) (fun v hv => hv)
      fun v hv => hv) Iff.rfl

/-- A call that succeeds on a single-sourced graph leaves one exactly if it does not add a source
to a variable that has one. -/
theorem EditCall.singleSourced_iff (h : g.Linked) (single : g.SingleSourced) (c : EditCall α) :
    (c.run.after g).SingleSourced ↔ ((∃ g', c.run g = .ok ⟨⟩ g') → ¬c.AddsSource g) := by
  rcases c.run_linked h with ⟨_, O, ⟨g', run, linked, rfl⟩, effect⟩ | ⟨err, run⟩
  · have after : c.run.after g = g' := by rw [Edit.after, run]
    rw [after, linked.singleSourced_iff,
      effect_singleSourced_iff h (h.singleSourced_iff.1 single) effect]
    exact ⟨fun spared _ => spared, fun spared => spared ⟨g', run⟩⟩
  · have after : c.run.after g = g := by rw [Edit.after, run]
    rw [after]
    refine iff_of_true single ?_
    rintro ⟨g', ok⟩
    rw [run] at ok
    cases ok

namespace Graph

theorem afterCalls_concat (g : Graph α) (calls : List (EditCall α)) (c : EditCall α) :
    g.afterCalls (calls ++ [c]) = c.run.after (g.afterCalls calls) := by
  rw [afterCalls, List.foldl_append]
  rfl

/-- Along a sequence of calls the graph stays single-sourced exactly if no call that succeeds adds
a source to a variable that has one at that time. -/
theorem singleSourced_along_iff (calls : List (EditCall α)) :
    (∀ n, (empty.afterCalls (calls.take n)).SingleSourced) ↔
      ∀ (n : Nat) (c : EditCall α), calls[n]? = some c →
        (∃ g', c.run (empty.afterCalls (calls.take n)) = .ok ⟨⟩ g') →
          ¬c.AddsSource (empty.afterCalls (calls.take n)) := by
  have linked (n : Nat) : (empty.afterCalls (calls.take n)).Linked :=
    (Reachable.empty.afterCalls _).linked
  have next {n : Nat} {c : EditCall α} (hc : calls[n]? = some c) :
      empty.afterCalls (calls.take (n + 1)) = c.run.after (empty.afterCalls (calls.take n)) := by
    rw [List.take_add_one, hc, Option.toList_some, afterCalls_concat]
  constructor
  · intro single n c hc
    have kept := single (n + 1)
    rw [next hc] at kept
    exact (c.singleSourced_iff (linked n) (single n)).1 kept
  · intro spared n
    induction n with
    | zero => exact singleSourced_empty
    | succ n ih =>
      cases hc : calls[n]? with
      | none => rwa [List.take_add_one, hc, Option.toList_none, List.append_nil]
      | some c =>
        rw [next hc]
        exact (c.singleSourced_iff (linked n) ih).2 (spared n c hc)

/-- An operator comes to write a constant, and the input that it reads gets a payload. -/
def doublySourced : Graph Nat :=
  afterCalls .empty
    [.addVariable "x" [1], .addVariable "y" [1], .addConstant "c" [1] #[1],
      .addOperator (.activation .relu) [⟨0⟩] [⟨1⟩], .designateInputs [⟨0⟩],
      .rebindOutput ⟨0⟩ ⟨1⟩ ⟨2⟩, .setPayload ⟨0⟩ #[2]]

theorem doublySourced_reachable : doublySourced.Reachable ∧
    (∃ x, doublySourced.variableAt? ⟨2⟩ = some x ∧ x.payload = some #[1] ∧
      x.producer = some ⟨0⟩) ∧
    (∃ x, ⟨0⟩ ∈ doublySourced.inputs ∧ doublySourced.variableAt? ⟨0⟩ = some x ∧
      x.payload = some #[2]) ∧
    ¬doublySourced.SingleSourced := by
  refine ⟨Reachable.empty.afterCalls _, ⟨_, rfl, rfl, rfl⟩, ⟨_, by decide, rfl, rfl⟩, ?_⟩
  intro single
  exact nomatch (single ⟨2⟩ _ rfl).1 (Option.some_ne_none _)

end Graph

end TensorGraph
