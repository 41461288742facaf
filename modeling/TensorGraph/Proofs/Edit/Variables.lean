import TensorGraph.Proofs.Edit.Run

/-!
# TensorGraph.Proofs.Edit.Variables

Edits of variables and designations keep a linked graph linked, and do to its outline what their
names say.

* `addVariable_yields`, `addConstant_yields`, `setPayload_yields`, `designateInputs_yields`,
  `designateOutputs_yields`, `prune_yields`: the outline after each edit.
* the lemmas that end in `_error`: otherwise the edit fails and leaves the graph as it was.
-/

namespace TensorGraph

variable {α : Type}

namespace Outline

/-- `v` is written or read by an operator, or designated. -/
def Needed (O : Outline α) (v : VariableId) : Prop :=
  (∃ o, O.Writes o v) ∨ (∃ o, O.Reads o v) ∨ v ∈ O.inputs ∨ v ∈ O.outputs

open Classical in
/-- The outline without the tensors that nothing needs. -/
noncomputable def pruned (O : Outline α) : Outline α :=
  { O with tensors := fun v => if O.Needed v then O.tensors v else none }

end Outline

namespace Graph

/-- A graph stays linked when its variables change in other things than their links, as long as
all that is needed stays live. -/
theorem Linked.of_variables {g g' : Graph α} (h : g.Linked)
    (operators : g'.operatorSlots = g.operatorSlots)
    (records : ∀ v y, g'.variableAt? v = some y → y.id = v ∧ y.consumers.Nodup ∧
      (∀ o, o ∈ y.consumers ↔ g.outline.Reads o v) ∧
      (∀ o, y.producer = some o ↔ g.outline.Writes o v) ∧ ∀ d ∈ y.payload, d.size = y.size)
    (live : ∀ v, (∃ o, g.outline.Writes o v) ∨ (∃ o, g.outline.Reads o v) ∨
      v ∈ g'.inputs ∨ v ∈ g'.outputs → g'.outline.Live v) : g'.Linked := by
  have operatorAt : g'.operatorAt? = g.operatorAt? := by
    funext o
    rw [operatorAt?, operators]
    rfl
  have reads {o v} : g'.outline.Reads o v ↔ g.outline.Reads o v := by
    simp only [Outline.Reads, outline_operators, operatorAt]
  have writes {o v} : g'.outline.Writes o v ↔ g.outline.Writes o v := by
    simp only [Outline.Writes, outline_operators, operatorAt]
  exact
    { variable_id := fun hx => (records _ _ hx).1
      operator_id := fun ho => h.operator_id (operatorAt ▸ ho)
      input_live := fun hr => live _ (.inr (.inl ⟨_, reads.1 hr⟩))
      output_live := fun hw => live _ (.inl ⟨_, writes.1 hw⟩)
      outputs_nodup := fun ho => h.outputs_nodup (operatorAt ▸ ho)
      consumers_nodup := fun hx => (records _ _ hx).2.1
      mem_consumers := fun hx o => ((records _ _ hx).2.2.1 o).trans reads.symm
      producer_iff := fun hx o => ((records _ _ hx).2.2.2.1 o).trans writes.symm
      payload_size := fun hx => (records _ _ hx).2.2.2.2
      designated_live := fun hv => live _ (.inr (.inr hv)) }

/-- What `Linked` says about the record of a variable. -/
theorem Linked.record {g : Graph α} (h : g.Linked) {v : VariableId} {x : Variable α}
    (hx : g.variableAt? v = some x) : x.id = v ∧ x.consumers.Nodup ∧
      (∀ o, o ∈ x.consumers ↔ g.outline.Reads o v) ∧
      (∀ o, x.producer = some o ↔ g.outline.Writes o v) ∧ ∀ d ∈ x.payload, d.size = x.size :=
  ⟨h.variable_id hx, h.consumers_nodup hx, h.mem_consumers hx, h.producer_iff hx,
    h.payload_size hx⟩

theorem Linked.needed_live {g : Graph α} (h : g.Linked) {v : VariableId}
    (hv : g.outline.Needed v) : g.outline.Live v := by
  rcases hv with ⟨o, hw⟩ | ⟨o, hr⟩ | hd
  · exact h.output_live hw
  · exact h.input_live hr
  · exact h.designated_live hd

/-- The id of the next variable. -/
def freshVariable (g : Graph α) : VariableId := ⟨g.variableSlots.size⟩

theorem variableAt?_fresh (g : Graph α) : g.variableAt? g.freshVariable = none := by
  cases h : g.variableAt? g.freshVariable with
  | none => rfl
  | some x => exact absurd (Arena.lt_size_of_get? h) (Nat.lt_irrefl _)

theorem outline_tensors_fresh (g : Graph α) : g.outline.tensors g.freshVariable = none := by
  rw [outline_tensors, variableAt?_fresh]; rfl

end Graph

open TensorGraph.Graph

namespace Edit

variable {g : Graph α} {v : VariableId}

theorem variableAt?_push (g : Graph α) (x : Variable α) (w : VariableId) :
    ({ g with variableSlots := g.variableSlots.push x } : Graph α).variableAt? w =
      if w = g.freshVariable then some x else g.variableAt? w := by
  show (g.variableSlots.push x).get? w.index = _
  rw [Arena.get?_push]
  by_cases e : w = g.freshVariable
  · subst e
    have slot : g.freshVariable.index = g.variableSlots.size := rfl
    rw [if_pos slot, if_pos rfl]
  · have ne : w.index ≠ g.variableSlots.size := fun h => e (by cases w; cases h; rfl)
    rw [if_neg ne, if_neg e]
    rfl

/-- A new variable, with a payload that fits if there is one. -/
theorem push_linked (h : g.Linked) (name : String) (shape : Shape) (payload : Option (Array α))
    (fits : ∀ d ∈ payload, d.size = shape.size) :
    let x : Variable α :=
      { id := g.freshVariable, name, shape, payload, producer := none, consumers := [] }
    let g' : Graph α := { g with variableSlots := g.variableSlots.push x }
    g'.Linked ∧ g'.outline = g.outline.setTensor g.freshVariable ⟨name, shape, payload⟩ := by
  intro x g'
  have variableAt := variableAt?_push g x
  have dead : ¬g.outline.Live g.freshVariable := fun ⟨_, ht⟩ => by
    rw [outline_tensors_fresh] at ht
    cases ht
  have outline : g'.outline = g.outline.setTensor g.freshVariable ⟨name, shape, payload⟩ := by
    have tensors : g'.outline.tensors =
        (g.outline.setTensor g.freshVariable ⟨name, shape, payload⟩).tensors := by
      funext w
      rw [outline_tensors, variableAt, Outline.setTensor_tensors]
      split <;> rfl
    show Outline.mk _ _ _ _ = Outline.mk _ _ _ _
    congr 1
  refine ⟨h.of_variables rfl (fun w y hy => ?_) (fun w hw => ?_), outline⟩
  · rw [variableAt] at hy
    split at hy
    · next e =>
      cases hy
      subst e
      refine ⟨rfl, List.nodup_nil, fun o => ?_, fun o => ?_, fits⟩
      · exact ⟨(fun h => nomatch h), fun hr => absurd (h.input_live hr) dead⟩
      · exact ⟨(fun h => nomatch h), fun hw => absurd (h.output_live hw) dead⟩
    · exact h.record hy
  · rw [outline]
    obtain ⟨t, ht⟩ := h.needed_live hw
    by_cases e : w = g.freshVariable
    · exact ⟨_, by rw [Outline.setTensor_tensors, if_pos e]⟩
    · exact ⟨t, by rw [Outline.setTensor_tensors, if_neg e, ht]⟩

theorem addVariable_yields (h : g.Linked) (name : String) (shape : Shape) :
    Yields (addVariable name shape) g g.freshVariable
      (g.outline.setTensor g.freshVariable ⟨name, shape, none⟩) :=
  ⟨_, rfl, push_linked h name shape none fun _ hd => nomatch hd⟩

theorem run_addConstant (g : Graph α) (name : String) {shape : Shape} {payload : Array α}
    (size : payload.size = shape.size) :
    let x : Variable α :=
      { id := g.freshVariable, name, shape, payload := some payload, producer := none,
        consumers := [] }
    addConstant name shape payload g =
      .ok g.freshVariable { g with variableSlots := g.variableSlots.push x } := by
  intro constant
  let x : Variable α :=
    { id := g.freshVariable, name, shape, payload := none, producer := none, consumers := [] }
  let g₁ : Graph α := { g with variableSlots := g.variableSlots.push x }
  have at₁ : g₁.variableAt? g.freshVariable = some x := by
    rw [variableAt?_push, if_pos rfl]
  have last : (g.variableSlots.push x).put g.freshVariable.index constant =
      g.variableSlots.push constant := by
    simp [Arena.push, Arena.put, Arena.size, freshVariable]
  have sized : ¬payload.size ≠ shape.size := fun ne => ne size
  rw [addConstant, if_neg sized]
  have pushed : addVariable name shape g = .ok g.freshVariable g₁ := rfl
  refine (run_bind_ok pushed).trans ?_
  refine (run_bind_ok (run_updateVariable at₁)).trans ?_
  rw [← last]
  rfl

theorem addConstant_yields (h : g.Linked) (name : String) {shape : Shape} {payload : Array α}
    (size : payload.size = shape.size) :
    Yields (addConstant name shape payload) g g.freshVariable
      (g.outline.setTensor g.freshVariable ⟨name, shape, some payload⟩) :=
  ⟨_, run_addConstant g name size,
    push_linked h name shape (some payload) fun d hd => by cases hd; exact size⟩

theorem addConstant_error (name : String) {shape : Shape} {payload : Array α}
    (size : payload.size ≠ shape.size) : ∃ e, addConstant name shape payload g = .error e g :=
  ⟨_, by rw [addConstant, if_pos size]; rfl⟩

theorem setPayload_yields (h : g.Linked) {t : Tensor α} (ht : g.outline.tensors v = some t)
    {payload : Array α} (size : payload.size = t.shape.size) (free : ∀ o, ¬g.outline.Writes o v) :
    Yields (setPayload v payload) g ⟨⟩
      (g.outline.setTensor v { t with payload := some payload }) := by
  obtain ⟨x, hx, rfl⟩ := Option.map_eq_some_iff.1 ht
  have unproduced : x.producer = none := by
    cases e : x.producer with
    | none => rfl
    | some p => exact absurd ((h.producer_iff hx p).1 e) (free p)
  let g' : Graph α :=
    { g with variableSlots := g.variableSlots.put v.index { x with payload := some payload } }
  have run : setPayload v payload g = .ok ⟨⟩ g' := by
    have sized : ¬payload.size ≠ x.size := fun ne => ne size
    rw [setPayload, run_bind_ok (run_liveVariable hx), if_neg sized]
    simp only [unproduced]
    rw [if_neg (by decide), run_updateVariable hx]
  have variableAt := variableAt?_put (x := { x with payload := some payload })
    (show (g.variableAt? v).isSome by rw [hx]; rfl)
  refine ⟨g', run, h.of_variables rfl (fun w y hy => ?_) (fun w hw => ?_), ?_⟩
  · rw [variableAt] at hy
    split at hy
    · next e =>
      cases hy
      subst e
      obtain ⟨id, nodup, readers, writer, _⟩ := h.record hx
      exact ⟨id, nodup, readers, writer, fun d hd => by cases hd; exact size⟩
    · exact h.record hy
  · obtain ⟨y, hy⟩ := live_iff.1 (h.needed_live hw)
    rw [live_iff, variableAt]
    split
    · exact ⟨_, rfl⟩
    · exact ⟨y, hy⟩
  · have tensors : g'.outline.tensors =
        (g.outline.setTensor v { x.tensor with payload := some payload }).tensors := by
      funext w
      rw [outline_tensors, variableAt, Outline.setTensor_tensors]
      split <;> rfl
    show Outline.mk _ _ _ _ = Outline.mk _ _ _ _
    congr 1

theorem setPayload_error (h : g.Linked) {payload : Array α}
    (bad : ∀ t, g.outline.tensors v = some t → payload.size = t.shape.size →
      ∃ o, g.outline.Writes o v) : ∃ e, setPayload v payload g = .error e g := by
  rw [setPayload]
  cases hx : g.variableAt? v with
  | none => exact ⟨_, run_bind_error (run_liveVariable_none hx)⟩
  | some x =>
    rw [run_bind_ok (run_liveVariable hx)]
    by_cases size : payload.size ≠ x.size
    · rw [if_pos size]; exact ⟨_, rfl⟩
    · rw [if_neg size]
      obtain ⟨o, hw⟩ := bad x.tensor (outline_tensors_of hx) (Classical.not_not.1 size)
      have produced : x.producer.isSome = true := by
        rw [(h.producer_iff hx o).2 hw]; rfl
      rw [if_pos produced]
      exact ⟨_, rfl⟩

/-- The check that a variable is live and nothing gives it a value. -/
theorem run_inputFree (v : VariableId) :
    (do
      let x ← liveVariable v
      if x.producer.isSome || x.isConstant then
        throw (.atVariable v .inputNotFree) : Edit α Unit) g = .ok ⟨⟩ g ∧
      (∃ x, g.variableAt? v = some x ∧ x.producer = none ∧ x.payload = none) ∨
    ∃ e, (do
      let x ← liveVariable v
      if x.producer.isSome || x.isConstant then
        throw (.atVariable v .inputNotFree) : Edit α Unit) g = .error e g := by
  cases hx : g.variableAt? v with
  | none => exact .inr ⟨_, run_bind_error (run_liveVariable_none hx)⟩
  | some x =>
    rw [run_bind_ok (run_liveVariable hx)]
    by_cases bad : (x.producer.isSome || x.isConstant) = true
    · rw [if_pos bad]; exact .inr ⟨_, rfl⟩
    · rw [if_neg bad]
      refine .inl ⟨rfl, x, rfl, ?_⟩
      simpa [Variable.isConstant] using bad

theorem designate_linked (h : g.Linked) {inputs outputs : List VariableId}
    (inputs_live : ∀ v ∈ inputs, g.outline.Live v)
    (outputs_live : ∀ v ∈ outputs, g.outline.Live v) :
    ({ g with inputs, outputs } : Graph α).Linked := by
  refine h.of_variables rfl (fun v y hy => h.record hy) (fun v hv => ?_)
  rcases hv with ⟨o, hw⟩ | ⟨o, hr⟩ | hi | ho
  · exact h.output_live hw
  · exact h.input_live hr
  · exact inputs_live v hi
  · exact outputs_live v ho

theorem designateInputs_ok {vs : List VariableId}
    (free : ∀ v ∈ vs, ∃ x, g.variableAt? v = some x ∧ x.producer = none ∧ x.payload = none) :
    designateInputs vs g = .ok ⟨⟩ { g with inputs := vs } := by
  rw [designateInputs]
  refine run_bind_ok (forM_check _ g vs fun v hv => ?_)
  obtain ⟨x, hx, unproduced, unset⟩ := free v hv
  rw [run_bind_ok (run_liveVariable hx), Variable.isConstant, unproduced, unset]
  rfl

theorem run_designateInputs (vs : List VariableId) :
    (designateInputs vs g = .ok ⟨⟩ { g with inputs := vs } ∧
      ∀ v ∈ vs, ∃ x, g.variableAt? v = some x ∧ x.producer = none ∧ x.payload = none) ∨
    ∃ e, designateInputs vs g = .error e g := by
  by_cases free :
      ∀ v ∈ vs, ∃ x, g.variableAt? v = some x ∧ x.producer = none ∧ x.payload = none
  · exact .inl ⟨designateInputs_ok free, free⟩
  · obtain ⟨v, hv⟩ := Classical.not_forall.1 free
    obtain ⟨hv, bad⟩ := Classical.not_imp.1 hv
    obtain ⟨e, he⟩ := forM_check_error _ g vs
      (fun w _ => (run_inputFree (g := g) w).imp_left And.left) ⟨v, hv, by
      rcases run_inputFree (g := g) v with ⟨_, free⟩ | ⟨e, he⟩
      · exact absurd free bad
      · rw [he]; exact fun h => nomatch h⟩
    exact .inr ⟨e, by rw [designateInputs, run_bind_error he]⟩

theorem designateOutputs_ok {vs : List VariableId} (live : ∀ v ∈ vs, g.outline.Live v) :
    designateOutputs vs g = .ok ⟨⟩ { g with outputs := vs } := by
  rw [designateOutputs]
  refine run_bind_ok (forM_check _ g vs fun v hv => ?_)
  obtain ⟨x, hx⟩ := live_iff.1 (live v hv)
  exact run_discard (run_liveVariable hx)

theorem run_designateOutputs (vs : List VariableId) :
    (designateOutputs vs g = .ok ⟨⟩ { g with outputs := vs } ∧
      ∀ v ∈ vs, g.outline.Live v) ∨
    ∃ e, designateOutputs vs g = .error e g := by
  by_cases live : ∀ v ∈ vs, g.outline.Live v
  · exact .inl ⟨designateOutputs_ok live, live⟩
  · obtain ⟨v, hv⟩ := Classical.not_forall.1 live
    obtain ⟨hv, dead⟩ := Classical.not_imp.1 hv
    have step (w : VariableId) : discard (liveVariable w) g = .ok ⟨⟩ g ∧ g.outline.Live w ∨
        ∃ e, discard (liveVariable w) g = .error e g := by
      cases hx : g.variableAt? w with
      | none => exact .inr ⟨_, run_discard_error (run_liveVariable_none hx)⟩
      | some x => exact .inl ⟨run_discard (run_liveVariable hx), live_iff.2 ⟨x, hx⟩⟩
    obtain ⟨e, he⟩ := forM_check_error _ g vs (fun w _ => (step w).imp_left And.left) ⟨v, hv, by
      rcases step v with ⟨_, l⟩ | ⟨e, he⟩
      · exact absurd l dead
      · rw [he]; exact fun h => nomatch h⟩
    exact .inr ⟨e, by rw [designateOutputs, run_bind_error he]⟩

theorem needed_iff (h : g.Linked) {x : Variable α} (hx : g.variableAt? v = some x) :
    needed g x = true ↔ g.outline.Needed v := by
  have written : x.producer.isSome = true ↔ ∃ o, g.outline.Writes o v := by
    rw [Option.isSome_iff_exists]
    exact exists_congr (h.producer_iff hx)
  have read : (!x.consumers.isEmpty) = true ↔ ∃ o, g.outline.Reads o v := by
    rw [Bool.not_eq_true', List.isEmpty_eq_false_iff_exists_mem]
    exact exists_congr (h.mem_consumers hx)
  simp only [needed, Bool.or_eq_true, written, read, Outline.Needed, h.variable_id hx, isInput,
    isOutput, List.contains_iff_mem, outline_inputs, outline_outputs, or_assoc]

theorem prune_yields (h : g.Linked) :
    ∃ n, Yields prune g n g.outline.pruned := by
  classical
  let g' : Graph α := { g with variableSlots := g.variableSlots.keep (needed g) }
  have variableAt (v : VariableId) : g'.variableAt? v = (g.variableAt? v).filter (needed g) :=
    Arena.get?_keep _ _ _
  have kept {v x} (hx : g.variableAt? v = some x) :
      g'.variableAt? v = if g.outline.Needed v then some x else none := by
    rw [variableAt, hx, Option.filter]
    simp only [← needed_iff h hx]
  refine ⟨_, g', rfl, h.of_variables rfl (fun v y hy => ?_) (fun v hv => ?_), ?_⟩
  · rw [variableAt, Option.filter_eq_some_iff] at hy
    exact h.record hy.1
  · obtain ⟨x, hx⟩ := live_iff.1 (h.needed_live hv)
    have needs : g.outline.Needed v := hv
    exact live_iff.2 ⟨x, by rw [kept hx, if_pos needs]⟩
  · have tensors : g'.outline.tensors = g.outline.pruned.tensors := by
      funext v
      rw [outline_tensors]
      cases hx : g.variableAt? v with
      | none => simp [variableAt, hx, Outline.pruned, outline_tensors]
      | some x =>
        rw [kept hx]
        simp only [Outline.pruned, outline_tensors, hx]
        split <;> rfl
    show Outline.mk _ _ _ _ = Outline.mk _ _ _ _
    congr 1

theorem keep_eq_self {ν : Type} {a : Arena ν} {p : ν → Bool} (all : ∀ x ∈ a.live, p x = true) :
    a.keep p = a := by
  have slot : ∀ s ∈ a.slots, Option.filter p s = s := by
    intro s hs
    cases s with
    | none => rfl
    | some x =>
      have hx : p x = true := all x (List.mem_filterMap.2 ⟨some x, hs, rfl⟩)
      simp [Option.filter, hx]
  show Arena.mk (a.slots.map (Option.filter p)) = a
  rw [List.map_congr_left slot, List.map_id']

/-- Pruning does nothing to a graph in which every variable is needed. -/
theorem prune_idle (h : g.Linked)
    (all : ∀ v, g.outline.Live v → g.outline.Needed v) : prune g = .ok 0 g := by
  have needs : ∀ x ∈ g.liveVariables, needed g x = true := by
    intro x hx
    obtain ⟨i, hi⟩ := Arena.mem_live.1 hx
    have hv : g.variableAt? ⟨i⟩ = some x := hi
    exact (needed_iff h hv).2 (all _ (live_iff.2 ⟨x, hv⟩))
  have count : g.liveVariables.countP (fun x => !needed g x) = 0 := by
    rw [List.countP_eq_zero]
    intro x hx
    simp [needs x hx]
  have same : g.variableSlots.keep (needed g) = g.variableSlots := keep_eq_self needs
  show EStateM.Result.ok (g.liveVariables.countP fun x => !needed g x)
    ({ g with variableSlots := g.variableSlots.keep (needed g) } : Graph α) = _
  rw [count, same]

end Edit

end TensorGraph
