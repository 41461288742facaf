import TensorGraph.Proofs.Edit.Run

/-!
# TensorGraph.Proofs.Edit.Operators

Edits of operators keep a linked graph linked, and do to its outline what their names say.

* `Graph.Linked.relink`: one operator replaced, and the links of the variables with it.
* `addOperator_yields`, `removeOperator_yields`, `rebindOutput_yields`, `replaceInput_yields`,
  `setInputs_yields`, `setKind_yields`: the outline after each edit.
* `setInputs_setKind_yields`, `removeAll_yields`: the outline after several of them.
* the lemmas that end in `_error`: otherwise the edit fails and leaves the graph as it was.
-/

namespace TensorGraph

variable {α : Type}

namespace Graph

/-- A graph stays linked when one operator `o` is replaced, put in or taken out, and the records
of the variables change only in what they say about `o`. -/
theorem Linked.relink {g g' : Graph α} (h : g.Linked) {o : OperatorId} (op? : Option (Operator α))
    {f : VariableId → Variable α → Variable α}
    (operators : ∀ p, g'.operatorAt? p = if p = o then op? else g.operatorAt? p)
    (records : ∀ v, g'.variableAt? v = (g.variableAt? v).map (f v))
    (inputs : g'.inputs = g.inputs) (outputs : g'.outputs = g.outputs)
    (good : ∀ op ∈ op?, op.id = o ∧ op.outputs.Nodup ∧
      (∀ v ∈ op.inputs, g.outline.Live v) ∧ ∀ v ∈ op.outputs, g.outline.Live v)
    (links : ∀ v x, g.variableAt? v = some x → (f v x).id = x.id ∧ (f v x).tensor = x.tensor ∧
      (f v x).consumers.Nodup ∧
      (∀ p, p ∈ (f v x).consumers ↔
        if p = o then ∃ op ∈ op?, v ∈ op.inputs else p ∈ x.consumers) ∧
      ∀ p, (f v x).producer = some p ↔
        if p = o then ∃ op ∈ op?, v ∈ op.outputs else x.producer = some p) :
    g'.Linked ∧ g'.outline = g.outline.setOperator o op? := by
  have variableAt {v y} (hy : g'.variableAt? v = some y) :
      ∃ x, g.variableAt? v = some x ∧ y = f v x := by
    rw [records, Option.map_eq_some_iff] at hy
    obtain ⟨x, hx, rfl⟩ := hy
    exact ⟨x, hx, rfl⟩
  have outline : g'.outline = g.outline.setOperator o op? := by
    have tensors : g'.outline.tensors = g.outline.tensors := by
      funext v
      rw [outline_tensors, outline_tensors, records]
      cases hx : g.variableAt? v with
      | none => rfl
      | some x => simp only [Option.map_some, (links v x hx).2.1]
    have ops : g'.outline.operators = (g.outline.setOperator o op?).operators :=
      funext operators
    show Outline.mk _ _ _ _ = Outline.mk _ _ _ _
    congr 1
  have live {v} : g'.outline.Live v ↔ g.outline.Live v := by rw [outline]; rfl
  have reads {p v} : g'.outline.Reads p v ↔
      if p = o then ∃ op ∈ op?, v ∈ op.inputs else g.outline.Reads p v := by
    rw [outline]
    by_cases e : p = o <;> simp [Outline.Reads, e]
  have writes {p v} : g'.outline.Writes p v ↔
      if p = o then ∃ op ∈ op?, v ∈ op.outputs else g.outline.Writes p v := by
    rw [outline]
    by_cases e : p = o <;> simp [Outline.Writes, e]
  refine ⟨?_, outline⟩
  constructor
  case variable_id =>
    intro v y hy
    obtain ⟨x, hx, rfl⟩ := variableAt hy
    rw [(links v x hx).1, h.variable_id hx]
  case operator_id =>
    intro p op hp
    rw [operators] at hp
    split at hp
    · next e => rw [(good op hp).1, e]
    · exact h.operator_id hp
  case input_live =>
    intro p v hr
    rw [live]
    rw [reads] at hr
    split at hr
    · obtain ⟨op, hop, hv⟩ := hr
      exact (good op hop).2.2.1 v hv
    · exact h.input_live hr
  case output_live =>
    intro p v hw
    rw [live]
    rw [writes] at hw
    split at hw
    · obtain ⟨op, hop, hv⟩ := hw
      exact (good op hop).2.2.2 v hv
    · exact h.output_live hw
  case outputs_nodup =>
    intro p op hp
    rw [operators] at hp
    split at hp
    · exact (good op hp).2.1
    · exact h.outputs_nodup hp
  case consumers_nodup =>
    intro v y hy
    obtain ⟨x, hx, rfl⟩ := variableAt hy
    exact (links v x hx).2.2.1
  case mem_consumers =>
    intro v y hy p
    obtain ⟨x, hx, rfl⟩ := variableAt hy
    rw [(links v x hx).2.2.2.1, reads, h.mem_consumers hx]
  case producer_iff =>
    intro v y hy p
    obtain ⟨x, hx, rfl⟩ := variableAt hy
    rw [(links v x hx).2.2.2.2, writes, h.producer_iff hx]
  case payload_size =>
    intro v y hy
    obtain ⟨x, hx, rfl⟩ := variableAt hy
    have same := (links v x hx).2.1
    have shape : (f v x).shape = x.shape := congrArg Tensor.shape same
    have payload : (f v x).payload = x.payload := congrArg Tensor.payload same
    rw [payload]
    intro d hd
    rw [h.payload_size hx d hd]
    show x.shape.size = (f v x).shape.size
    rw [shape]
  case designated_live =>
    intro v hv
    rw [live]
    rw [inputs, outputs] at hv
    exact h.designated_live hv

theorem Linked.variable_of_live {g : Graph α} {v : VariableId} (hv : g.outline.Live v) :
    (g.variableAt? v).isSome := by
  obtain ⟨x, hx⟩ := live_iff.1 hv
  rw [hx]; rfl

theorem Linked.reader_iff {g : Graph α} (h : g.Linked) {o : OperatorId} {op : Operator α}
    (ho : g.operatorAt? o = some op) {v : VariableId} {x : Variable α}
    (hx : g.variableAt? v = some x) : o ∈ x.consumers ↔ v ∈ op.inputs := by
  rw [h.mem_consumers hx]
  exact ⟨fun ⟨_, e, hv⟩ => by cases ho.symm.trans e; exact hv, fun hv => ⟨op, ho, hv⟩⟩

theorem Linked.writer_iff {g : Graph α} (h : g.Linked) {o : OperatorId} {op : Operator α}
    (ho : g.operatorAt? o = some op) {v : VariableId} {x : Variable α}
    (hx : g.variableAt? v = some x) : x.producer = some o ↔ v ∈ op.outputs := by
  rw [h.producer_iff hx]
  exact ⟨fun ⟨_, e, hv⟩ => by cases ho.symm.trans e; exact hv, fun hv => ⟨op, ho, hv⟩⟩

/-- The id of the next operator. -/
def freshOperator (g : Graph α) : OperatorId := ⟨g.operatorSlots.size⟩

theorem operatorAt?_fresh (g : Graph α) : g.operatorAt? g.freshOperator = none := by
  cases h : g.operatorAt? g.freshOperator with
  | none => rfl
  | some op => exact absurd (Arena.lt_size_of_get? h) (Nat.lt_irrefl _)

end Graph

open TensorGraph.Graph

namespace Edit

variable {g : Graph α} {o : OperatorId} {op : Operator α}

/-- The record of a variable with `o` among its consumers. -/
def withConsumer (o : OperatorId) (x : Variable α) : Variable α :=
  if x.consumers.contains o then x else { x with consumers := x.consumers ++ [o] }

/-- The record of a variable without `o` among its consumers. -/
def withoutConsumer (o : OperatorId) (x : Variable α) : Variable α :=
  { x with consumers := x.consumers.filter (· ≠ o) }

/-- The record of a variable that `o` no longer produces. -/
def withoutProducer (o : OperatorId) (x : Variable α) : Variable α :=
  if x.producer = some o then { x with producer := none } else x

/-- The record of a variable with another producer. -/
def withProducer (p : Option OperatorId) (x : Variable α) : Variable α := { x with producer := p }

@[simp] theorem withProducer_id (p : Option OperatorId) (x : Variable α) :
    (withProducer p x).id = x.id := rfl

@[simp] theorem withProducer_tensor (p : Option OperatorId) (x : Variable α) :
    (withProducer p x).tensor = x.tensor := rfl

@[simp] theorem withProducer_consumers (p : Option OperatorId) (x : Variable α) :
    (withProducer p x).consumers = x.consumers := rfl

@[simp] theorem withProducer_producer (p : Option OperatorId) (x : Variable α) :
    (withProducer p x).producer = p := rfl

@[simp] theorem withConsumer_id (x : Variable α) : (withConsumer o x).id = x.id := by
  unfold withConsumer; split <;> rfl

@[simp] theorem withConsumer_tensor (x : Variable α) : (withConsumer o x).tensor = x.tensor := by
  unfold withConsumer; split <;> rfl

@[simp] theorem withConsumer_producer (x : Variable α) :
    (withConsumer o x).producer = x.producer := by
  unfold withConsumer; split <;> rfl

@[simp] theorem withoutConsumer_id (x : Variable α) : (withoutConsumer o x).id = x.id := rfl

@[simp] theorem withoutConsumer_tensor (x : Variable α) :
    (withoutConsumer o x).tensor = x.tensor := rfl

@[simp] theorem withoutConsumer_producer (x : Variable α) :
    (withoutConsumer o x).producer = x.producer := rfl

theorem mem_withConsumer (x : Variable α) (p : OperatorId) :
    p ∈ (withConsumer o x).consumers ↔ p = o ∨ p ∈ x.consumers := by
  unfold withConsumer
  split
  · next h =>
    constructor
    · exact .inr
    · rintro (rfl | h')
      · simpa using h
      · exact h'
  · simp [or_comm]

theorem nodup_withConsumer (x : Variable α) (h : x.consumers.Nodup) :
    (withConsumer o x).consumers.Nodup := by
  unfold withConsumer
  split
  · exact h
  · next ne =>
    have new : o ∉ x.consumers := by simpa using ne
    rw [List.nodup_append]
    refine ⟨h, by simp, fun p hp q hq e => new ?_⟩
    rw [← List.mem_singleton.1 hq, ← e]
    exact hp

theorem withConsumer_idem (x : Variable α) :
    withConsumer o (withConsumer o x) = withConsumer o x := by
  have mem : (withConsumer o x).consumers.contains o = true := by
    simp [mem_withConsumer]
  generalize withConsumer o x = y at mem
  unfold withConsumer
  rw [if_pos mem]

theorem mem_withoutConsumer (x : Variable α) (p : OperatorId) :
    p ∈ (withoutConsumer o x).consumers ↔ p ∈ x.consumers ∧ p ≠ o := by
  simp [withoutConsumer]

theorem withoutConsumer_idem (x : Variable α) :
    withoutConsumer o (withoutConsumer o x) = withoutConsumer o x := by
  simp [withoutConsumer]

@[simp] theorem withoutProducer_id (x : Variable α) : (withoutProducer o x).id = x.id := by
  unfold withoutProducer; split <;> rfl

@[simp] theorem withoutProducer_tensor (x : Variable α) :
    (withoutProducer o x).tensor = x.tensor := by
  unfold withoutProducer; split <;> rfl

@[simp] theorem withoutProducer_consumers (x : Variable α) :
    (withoutProducer o x).consumers = x.consumers := by
  unfold withoutProducer; split <;> rfl

theorem withoutProducer_idem (x : Variable α) :
    withoutProducer o (withoutProducer o x) = withoutProducer o x := by
  unfold withoutProducer
  split <;> simp_all

theorem withoutProducer_producer (x : Variable α) (p : OperatorId) :
    (withoutProducer o x).producer = some p ↔ x.producer = some p ∧ p ≠ o := by
  unfold withoutProducer
  split
  · next e => simp [e, eq_comm]
  · next ne =>
    constructor
    · intro e
      exact ⟨e, fun he => ne (he ▸ e)⟩
    · exact And.left

/-- An operator is replaced by one with other inputs and the same id and outputs, and its old and
new operands are told. -/
theorem relink_inputs (h : g.Linked) (ho : g.operatorAt? o = some op) (inputs : List VariableId)
    (kind : OperatorKind α) (live : ∀ v ∈ inputs, g.outline.Live v)
    {g' : Graph α} (dropped : List VariableId)
    (told : ∀ v ∈ op.inputs, v ∉ inputs → v ∈ dropped)
    (operators : ∀ p, g'.operatorAt? p =
      if p = o then some { op with inputs, kind } else g.operatorAt? p)
    (records : ∀ v, g'.variableAt? v = (g.variableAt? v).map fun x =>
      let x := if v ∈ dropped then withoutConsumer o x else x
      if v ∈ inputs then withConsumer o x else x)
    (ins : g'.inputs = g.inputs) (outs : g'.outputs = g.outputs) :
    g'.Linked ∧ g'.outline = g.outline.setOperator o (some { op with inputs, kind }) := by
  refine h.relink _ operators records ins outs ?_ ?_
  · intro new hnew
    cases hnew
    have id := h.operator_id ho
    have nodup := h.outputs_nodup ho
    exact ⟨id, nodup, live, fun v hv => h.output_live ⟨op, ho, hv⟩⟩
  · intro v x hx
    have reader := h.reader_iff ho hx
    have writer := h.writer_iff ho hx
    have nodup := h.consumers_nodup hx
    have dropNodup : (withoutConsumer o x).consumers.Nodup := nodup.filter _
    refine ⟨?_, ?_, ?_, ?_, ?_⟩
    · by_cases hd : v ∈ dropped <;> by_cases hi : v ∈ inputs <;>
        simp [hd, hi]
    · by_cases hd : v ∈ dropped <;> by_cases hi : v ∈ inputs <;>
        simp [hd, hi]
    · by_cases hd : v ∈ dropped <;> by_cases hi : v ∈ inputs <;>
        simp only [hd, hi, if_true, if_false] <;>
        first
          | exact nodup_withConsumer _ dropNodup
          | exact nodup_withConsumer _ nodup
          | exact dropNodup
          | exact nodup
    · intro p
      have gone : v ∉ inputs → v ∉ dropped → o ∉ x.consumers := fun hi hd hm =>
        hd (told v (reader.1 hm) hi)
      by_cases hd : v ∈ dropped <;> by_cases hi : v ∈ inputs <;> by_cases e : p = o <;>
        simp [hd, hi, e, mem_withConsumer, mem_withoutConsumer]
      exact gone hi hd
    · intro p
      by_cases hd : v ∈ dropped <;> by_cases hi : v ∈ inputs <;> by_cases e : p = o <;>
        simp [hd, hi, e, writer]

theorem dropConsumer_eq (o : OperatorId) :
    (dropConsumer o : VariableId → Edit α Unit) = fun v => updateVariable v (withoutConsumer o) :=
  rfl

theorem addConsumer_eq (o : OperatorId) :
    (addConsumer o : VariableId → Edit α Unit) = fun v => updateVariable v (withConsumer o) :=
  rfl

theorem setKind_yields (h : g.Linked) (ho : g.operatorAt? o = some op) (kind : OperatorKind α) :
    Yields (setKind o kind) g ⟨⟩ (g.outline.setOperator o (some { op with kind })) := by
  refine ⟨_, run_updateOperator ho, ?_⟩
  refine relink_inputs h ho op.inputs kind (fun v hv => h.input_live ⟨op, ho, hv⟩)
    [] (fun v hv hn => absurd hv hn)
    (operatorAt?_put (by rw [ho]; rfl)) (fun v => ?_) rfl rfl
  -- The readers already list `o`, so adding it again changes nothing.
  show g.variableAt? v = _
  cases hx : g.variableAt? v with
  | none => rfl
  | some x =>
    by_cases hv : v ∈ op.inputs
    · have listed : x.consumers.contains o = true := by
        simpa using (h.mem_consumers hx o).2 ⟨op, ho, hv⟩
      simp only [List.not_mem_nil, if_false, hv, if_true, Option.map_some, withConsumer]
      rw [if_pos listed]
    · simp [hv]

theorem setKind_error (ho : g.operatorAt? o = none) (kind : OperatorKind α) :
    ∃ e, setKind o kind g = .error e g := ⟨_, run_updateOperator_none ho⟩

theorem setInputs_yields (h : g.Linked) (ho : g.operatorAt? o = some op)
    {inputs : List VariableId} (live : ∀ v ∈ inputs, g.outline.Live v) :
    Yields (setInputs o inputs) g ⟨⟩ (g.outline.setOperator o (some { op with inputs })) := by
  have checked : inputs.forM (fun v => discard (liveVariable v)) g = .ok ⟨⟩ g :=
    forM_check _ g inputs fun v hv => by
      obtain ⟨x, hx⟩ := live_iff.1 (live v hv)
      exact run_discard (run_liveVariable hx)
  let g₁ : Graph α :=
    { g with operatorSlots := g.operatorSlots.put o.index { op with inputs } }
  obtain ⟨g₂, run₂, rel₂⟩ := forM_updateVariable (withoutConsumer_idem (o := o)) op.inputs g₁
    fun v hv => Linked.variable_of_live (h.input_live ⟨op, ho, hv⟩)
  obtain ⟨g₃, run₃, rel₃⟩ := forM_updateVariable (withConsumer_idem (o := o)) inputs g₂
    fun v hv => by
      rw [rel₂.live]
      exact Linked.variable_of_live (live v hv)
  have rel := rel₂.trans rel₃
  refine ⟨g₃, ?_, relink_inputs h ho inputs op.kind live op.inputs
    (fun v hv _ => hv) (fun p => ?_) (fun v => ?_) rel.inputs rel.outputs⟩
  · rw [setInputs, run_bind_ok checked, run_bind_ok (run_liveOperator ho),
      run_bind_ok (run_updateOperator ho), dropConsumer_eq, addConsumer_eq, run_bind_ok run₂, run₃]
  · show g₃.operatorSlots.get? p.index = _
    rw [rel.operators]
    exact operatorAt?_put (by rw [ho]; rfl) p
  · rw [rel.variableAt?]
    rfl

/-- Operands and kind of an operator, one after the other. -/
theorem setInputs_setKind_yields (h : g.Linked) (ho : g.operatorAt? o = some op)
    {inputs : List VariableId} (live : ∀ v ∈ inputs, g.outline.Live v) (kind : OperatorKind α) :
    Yields (do
      setInputs o inputs
      setKind o kind) g ⟨⟩ (g.outline.setOperator o (some { op with inputs, kind })) := by
  refine (setInputs_yields h ho live).bind fun g₁ h₁ e₁ => ?_
  have ho₁ : g₁.operatorAt? o = some { op with inputs } := by
    rw [← outline_operators, e₁]; simp
  obtain ⟨g₂, run, h₂, e₂⟩ := setKind_yields h₁ ho₁ kind
  exact ⟨g₂, run, h₂, by rw [e₂, e₁, Outline.setOperator_setOperator]⟩

theorem setInputs_error {inputs : List VariableId}
    (bad : g.operatorAt? o = none ∨ ∃ v ∈ inputs, g.variableAt? v = none) :
    ∃ e, setInputs o inputs g = .error e g := by
  by_cases live : ∀ v ∈ inputs, g.variableAt? v ≠ none
  · have checked : inputs.forM (fun v => discard (liveVariable v)) g = .ok ⟨⟩ g :=
      forM_check _ g inputs fun v hv => by
        obtain ⟨x, hx⟩ := Option.ne_none_iff_exists'.1 (live v hv)
        exact run_discard (run_liveVariable hx)
    have ho := bad.resolve_right fun ⟨v, hv, e⟩ => live v hv e
    exact ⟨_, by rw [setInputs, run_bind_ok checked,
      run_bind_error (run_liveOperator_none ho)]⟩
  · obtain ⟨e, he⟩ : ∃ e, inputs.forM (fun v => discard (liveVariable v)) g = .error e g := by
      refine forM_check_error _ g inputs (fun v _ => ?_) ?_
      · cases hx : g.variableAt? v with
        | none => exact .inr ⟨_, run_discard_error (run_liveVariable_none hx)⟩
        | some x => exact .inl (run_discard (run_liveVariable hx))
      · obtain ⟨v, hv⟩ := Classical.not_forall.1 live
        obtain ⟨hv, e⟩ := Classical.not_imp.1 hv
        refine ⟨v, hv, ?_⟩
        rw [run_discard_error (run_liveVariable_none (Classical.not_not.1 e))]
        exact fun h => nomatch h
    exact ⟨e, by rw [setInputs, run_bind_error he]⟩

theorem replaceInput_yields (h : g.Linked) (ho : g.operatorAt? o = some op)
    {old new : VariableId} (hnew : g.outline.Live new) (hold : old ∈ op.inputs) :
    Yields (replaceInput o old new) g ⟨⟩ (g.outline.setOperator o
      (some { op with inputs := op.inputs.map fun v => if v = old then new else v })) := by
  obtain ⟨x, hx⟩ := live_iff.1 hnew
  obtain ⟨y, hy⟩ := live_iff.1 (h.input_live ⟨op, ho, hold⟩)
  let inputs := op.inputs.map fun v => if v = old then new else v
  have mem_new : new ∈ inputs := List.mem_map.2 ⟨old, hold, if_pos rfl⟩
  let g₁ : Graph α :=
    { g with operatorSlots := g.operatorSlots.put o.index { op with inputs } }
  have hy₁ : g₁.variableAt? old = some y := hy
  let g₂ : Graph α :=
    { g₁ with variableSlots := g₁.variableSlots.put old.index (withoutConsumer o y) }
  have rel₂ : Relinked g₁ g₂ _ := relinked_put hy₁ (withoutConsumer o)
  have hx₁ : g₁.variableAt? new = some x := hx
  obtain ⟨x₂, hx₂⟩ := Option.isSome_iff_exists.1 ((rel₂.live new).trans (by rw [hx₁]; rfl))
  let g₃ : Graph α :=
    { g₂ with variableSlots := g₂.variableSlots.put new.index (withConsumer o x₂) }
  have rel₃ : Relinked g₂ g₃ _ := relinked_put hx₂ (withConsumer o)
  have rel := rel₂.trans rel₃
  have contains : (!op.inputs.contains old) = false := by simpa using hold
  refine ⟨g₃, ?_, relink_inputs h ho inputs op.kind (fun v hv => ?_) [old]
    (fun v hv hn => ?_) (operatorAt?_put (by rw [ho]; rfl)) (fun v => ?_) rfl rfl⟩
  · rw [replaceInput, run_bind_ok (run_liveVariable hx), run_bind_ok (run_liveOperator ho)]
    simp only [contains]
    rw [if_neg (by decide), run_bind_ok (run_updateOperator ho), dropConsumer_eq, addConsumer_eq]
    exact (run_bind_ok (run_updateVariable hy₁)).trans (run_updateVariable hx₂)
  · obtain ⟨w, hw, rfl⟩ := List.mem_map.1 hv
    split
    · exact hnew
    · exact h.input_live ⟨op, ho, hw⟩
  · by_cases e : v = old
    · rw [e]; exact List.mem_singleton_self old
    · have kept : v ∈ inputs := List.mem_map.2 ⟨v, hv, if_neg e⟩
      exact absurd kept hn
  · rw [rel.variableAt?]
    show Option.map _ (g.variableAt? v) = _
    cases hx : g.variableAt? v with
    | none => rfl
    | some y =>
      simp only [Option.map_some, List.mem_singleton]
      by_cases hv : v ∈ inputs
      · by_cases e : v = new
        · simp only [e, mem_new, if_true]
        · -- An operand that stays was listed and is not told again.
          have kept : v ≠ old ∧ v ∈ op.inputs := by
            obtain ⟨w, hw, ew⟩ := List.mem_map.1 hv
            split at ew
            · exact absurd ew.symm e
            · next ne => exact ⟨ew ▸ ne, ew ▸ hw⟩
          have listed : y.consumers.contains o = true := by
            simpa using (h.mem_consumers hx o).2 ⟨op, ho, kept.2⟩
          simp only [e, kept.1, hv, if_true, if_false, withConsumer]
          rw [if_pos listed]
      · have e : v ≠ new := fun e => hv (e ▸ mem_new)
        simp only [e, hv, if_false]

theorem replaceInput_error {old new : VariableId}
    (bad : g.variableAt? new = none ∨ g.operatorAt? o = none ∨
      ∃ op, g.operatorAt? o = some op ∧ old ∉ op.inputs) :
    ∃ e, replaceInput o old new g = .error e g := by
  rw [replaceInput]
  cases hx : g.variableAt? new with
  | none => exact ⟨_, run_bind_error (run_liveVariable_none hx)⟩
  | some x =>
    rw [run_bind_ok (run_liveVariable hx)]
    cases ho : g.operatorAt? o with
    | none => exact ⟨_, run_bind_error (run_liveOperator_none ho)⟩
    | some op =>
      rw [run_bind_ok (run_liveOperator ho)]
      have absent : old ∉ op.inputs := by
        rcases bad with e | e | ⟨op', e, absent⟩
        · rw [hx] at e; cases e
        · rw [ho] at e; cases e
        · rw [ho] at e; cases e; exact absent
      have contains : (!op.inputs.contains old) = true := by simpa using absent
      simp only [contains, if_true]
      exact ⟨_, rfl⟩

theorem removeOperator_yields (h : g.Linked) (ho : g.operatorAt? o = some op) :
    Yields (removeOperator o) g op (g.outline.setOperator o none) := by
  let g₁ : Graph α := { g with operatorSlots := g.operatorSlots.erase o.index }
  obtain ⟨g₂, run₂, rel₂⟩ := forM_updateVariable (withoutConsumer_idem (o := o)) op.inputs g₁
    fun v hv => Linked.variable_of_live (h.input_live ⟨op, ho, hv⟩)
  obtain ⟨g₃, run₃, rel₃⟩ := forM_updateVariable (withoutProducer_idem (o := o)) op.outputs g₂
    fun v hv => by
      rw [rel₂.live]
      exact Linked.variable_of_live (h.output_live ⟨op, ho, hv⟩)
  have rel := rel₂.trans rel₃
  refine ⟨g₃, ?_, h.relink none (fun p => ?_) rel.variableAt? rel.inputs rel.outputs
    (fun _ h => nomatch h) fun v x hx => ?_⟩
  · rw [removeOperator, run_bind_ok (run_liveOperator ho), run_bind_ok (run_modify _ g),
      dropConsumer_eq, run_bind_ok run₂]
    exact run_bind_ok run₃
  · show g₃.operatorSlots.get? p.index = _
    rw [rel.operators]
    exact operatorAt?_erase g o p
  · have reader := h.reader_iff ho hx
    have writer := h.writer_iff ho hx
    have nodup := h.consumers_nodup hx
    have dropNodup : (withoutConsumer o x).consumers.Nodup := nodup.filter _
    refine ⟨?_, ?_, ?_, fun p => ?_, fun p => ?_⟩
    · by_cases hi : v ∈ op.inputs <;> by_cases hw : v ∈ op.outputs <;> simp [hi, hw]
    · by_cases hi : v ∈ op.inputs <;> by_cases hw : v ∈ op.outputs <;> simp [hi, hw]
    · by_cases hi : v ∈ op.inputs <;> by_cases hw : v ∈ op.outputs <;>
        simp [hi, hw, nodup, dropNodup]
    · by_cases hi : v ∈ op.inputs <;> by_cases hw : v ∈ op.outputs <;> by_cases e : p = o <;>
        simp [hi, hw, e, mem_withoutConsumer, reader]
    · by_cases hi : v ∈ op.inputs <;> by_cases hw : v ∈ op.outputs <;> by_cases e : p = o <;>
        simp [hi, hw, e, withoutProducer_producer, writer]

/-- Taking out operators one after the other. -/
theorem removeAll_yields (h : g.Linked) {ids : List OperatorId} (nodup : ids.Nodup)
    (live : ∀ o ∈ ids, ∃ op, g.operatorAt? o = some op) :
    Yields (ids.forM fun o => discard (removeOperator o)) g ⟨⟩ (g.outline.without ids) := by
  induction ids generalizing g with
  | nil => exact ⟨g, rfl, h, rfl⟩
  | cons o ids ih =>
    obtain ⟨fresh, nodup⟩ := List.nodup_cons.1 nodup
    obtain ⟨⟨op, ho⟩, live⟩ := List.forall_mem_cons.1 live
    rw [forM_cons]
    refine (removeOperator_yields h ho).discard.bind fun g₁ h₁ e₁ => ?_
    have live₁ : ∀ p ∈ ids, ∃ op, g₁.operatorAt? p = some op := fun p hp => by
      have ne : p ≠ o := fun e => fresh (e ▸ hp)
      rw [← outline_operators, e₁, Outline.setOperator_operators, if_neg ne]
      exact live p hp
    obtain ⟨g₂, run, h₂, e₂⟩ := ih h₁ nodup live₁
    refine ⟨g₂, run, h₂, e₂.trans ?_⟩
    rw [e₁]
    simp only [Outline.without, Outline.setOperator, List.mem_cons]
    congr 1
    funext p
    by_cases e : p = o <;> by_cases hp : p ∈ ids <;> simp [e, hp]

theorem removeOperator_error (ho : g.operatorAt? o = none) :
    ∃ e, removeOperator o g = .error e g :=
  ⟨_, by rw [removeOperator, run_bind_error (run_liveOperator_none ho)]⟩

theorem mem_replaceFirst {old : VariableId} (new : VariableId) {vs : List VariableId}
    (hold : old ∈ vs) (nodup : vs.Nodup) (v : VariableId) :
    v ∈ replaceFirst old new vs ↔ v = new ∨ v ≠ old ∧ v ∈ vs := by
  induction vs with
  | nil => cases hold
  | cons w vs ih =>
    obtain ⟨hw, rest⟩ := List.nodup_cons.1 nodup
    by_cases e : w = old
    · subst e
      rw [replaceFirst, if_pos rfl, List.mem_cons, List.mem_cons]
      constructor
      · rintro (h | h)
        · exact .inl h
        · exact .inr ⟨fun e => hw (e ▸ h), .inr h⟩
      · rintro (h | ⟨ne, h | h⟩)
        · exact .inl h
        · exact absurd h ne
        · exact .inr h
    · have tail : old ∈ vs := (List.mem_cons.1 hold).resolve_left fun h => e h.symm
      rw [replaceFirst, if_neg e, List.mem_cons, List.mem_cons, ih tail rest]
      constructor
      · rintro (h | h | ⟨ne, h⟩)
        · exact .inr ⟨h ▸ e, .inl h⟩
        · exact .inl h
        · exact .inr ⟨ne, .inr h⟩
      · rintro (h | ⟨ne, h | h⟩)
        · exact .inr (.inl h)
        · exact .inl h
        · exact .inr (.inr ⟨ne, h⟩)

theorem replaceFirst_of_not_mem {old new : VariableId} {vs : List VariableId}
    (hold : old ∉ vs) : replaceFirst old new vs = vs := by
  induction vs with
  | nil => rfl
  | cons w vs ih =>
    have ne : w ≠ old := fun e => hold (e ▸ List.mem_cons_self)
    rw [replaceFirst, if_neg ne, ih fun h => hold (List.mem_cons_of_mem w h)]

theorem nodup_replaceFirst {old new : VariableId} {vs : List VariableId} (nodup : vs.Nodup)
    (hnew : new ∉ vs) : (replaceFirst old new vs).Nodup := by
  induction vs with
  | nil => exact nodup
  | cons w vs ih =>
    obtain ⟨hw, rest⟩ := List.nodup_cons.1 nodup
    have tail : new ∉ vs := fun h => hnew (List.mem_cons_of_mem w h)
    by_cases e : w = old
    · rw [replaceFirst, if_pos e]
      exact List.nodup_cons.2 ⟨tail, rest⟩
    · rw [replaceFirst, if_neg e]
      refine List.nodup_cons.2 ⟨fun h => ?_, ih rest tail⟩
      by_cases hold : old ∈ vs
      · rcases (mem_replaceFirst new hold rest w).1 h with h | h
        · exact hnew (h ▸ List.mem_cons_self)
        · exact hw h.2
      · exact hw (replaceFirst_of_not_mem hold ▸ h)

theorem rebindOutput_yields (h : g.Linked) (ho : g.operatorAt? o = some op)
    {old new : VariableId} (hnew : g.outline.Live new) (hold : old ∈ op.outputs)
    (free : ∀ p, ¬g.outline.Writes p new) :
    Yields (rebindOutput o old new) g ⟨⟩ (g.outline.setOperator o
      (some { op with outputs := replaceFirst old new op.outputs })) := by
  obtain ⟨x, hx⟩ := live_iff.1 hnew
  obtain ⟨y, hy⟩ := live_iff.1 (h.output_live ⟨op, ho, hold⟩)
  have unproduced : x.producer = none := by
    cases e : x.producer with
    | none => rfl
    | some p => exact absurd ((h.producer_iff hx p).1 e) (free p)
  have notOutput : new ∉ op.outputs := fun hv => free o ⟨op, ho, hv⟩
  have ne : old ≠ new := fun e => notOutput (e ▸ hold)
  have nodup := h.outputs_nodup ho
  let outputs := replaceFirst old new op.outputs
  let g₁ : Graph α :=
    { g with operatorSlots := g.operatorSlots.put o.index { op with outputs } }
  have hy₁ : g₁.variableAt? old = some y := hy
  let g₂ : Graph α :=
    { g₁ with variableSlots := g₁.variableSlots.put old.index (withProducer none y) }
  have rel₂ : Relinked g₁ g₂ _ := relinked_put hy₁ (withProducer none)
  have hx₁ : g₁.variableAt? new = some x := hx
  obtain ⟨x₂, hx₂⟩ := Option.isSome_iff_exists.1 ((rel₂.live new).trans (by rw [hx₁]; rfl))
  let g₃ : Graph α :=
    { g₂ with variableSlots := g₂.variableSlots.put new.index (withProducer (some o) x₂) }
  have rel₃ : Relinked g₂ g₃ _ := relinked_put hx₂ (withProducer (some o))
  have rel := rel₂.trans rel₃
  have contains : (!op.outputs.contains old) = false := by simpa using hold
  have run : rebindOutput o old new g = .ok ⟨⟩ g₃ := by
    rw [rebindOutput, run_bind_ok (run_liveVariable hx)]
    simp only [unproduced]
    rw [run_bind_ok (run_liveOperator ho)]
    simp only [contains]
    rw [if_neg (by decide), run_bind_ok (run_updateOperator ho)]
    exact (run_bind_ok (run_updateVariable hy₁)).trans (run_updateVariable hx₂)
  refine ⟨g₃, run, h.relink (some { op with outputs })
    (operatorAt?_put (by rw [ho]; rfl)) rel.variableAt? rfl rfl (fun new hnew => ?_)
    fun v x hx => ?_⟩
  · cases hnew
    have id := h.operator_id ho
    refine ⟨id, nodup_replaceFirst nodup notOutput, fun v hv => h.input_live ⟨op, ho, hv⟩, ?_⟩
    intro v hv
    rcases (mem_replaceFirst new hold nodup v).1 hv with rfl | ⟨_, hv⟩
    · exact hnew
    · exact h.output_live ⟨op, ho, hv⟩
  · have reader := h.reader_iff ho hx
    have writer := h.writer_iff ho hx
    have freeNew (p : OperatorId) : v = new → x.producer ≠ some p := fun e hp =>
      free p (e ▸ (h.producer_iff hx p).1 hp)
    refine ⟨?_, ?_, ?_, fun p => ?_, fun p => ?_⟩
    · split <;> split <;> rfl
    · split <;> split <;> rfl
    · have nodup := h.consumers_nodup hx
      split <;> split <;> exact nodup
    · simp only [apply_ite Variable.consumers, withProducer_consumers, ite_self]
      by_cases e : p = o <;> simp [e, reader]
    · have member := mem_replaceFirst new hold nodup v
      by_cases ev : v = new
      · subst ev
        have := freeNew p rfl
        by_cases e : p = o
        · simp [outputs, member, e]
        · have notSelf : o ≠ p := fun h => e h.symm
          simp [e, notSelf, this]
      · by_cases eo : v = old
        · subst eo
          by_cases e : p = o
          · simp [outputs, member, ev, e]
          · have other : x.producer ≠ some p := fun hp =>
              e (h.writer_unique ((h.producer_iff hx p).1 hp) ⟨op, ho, hold⟩)
            simp [ev, e, other]
        · by_cases e : p = o <;> simp [outputs, member, ev, eo, e, writer]

theorem rebindOutput_error (h : g.Linked) {old new : VariableId}
    (bad : g.variableAt? new = none ∨ (∃ p, g.outline.Writes p new) ∨ g.operatorAt? o = none ∨
      ∃ op, g.operatorAt? o = some op ∧ old ∉ op.outputs) :
    ∃ e, rebindOutput o old new g = .error e g := by
  rw [rebindOutput]
  cases hx : g.variableAt? new with
  | none => exact ⟨_, run_bind_error (run_liveVariable_none hx)⟩
  | some x =>
    rw [run_bind_ok (run_liveVariable hx)]
    cases hp : x.producer with
    | some p => exact ⟨_, rfl⟩
    | none =>
      simp only []
      cases ho : g.operatorAt? o with
      | none => exact ⟨_, run_bind_error (run_liveOperator_none ho)⟩
      | some op =>
        rw [run_bind_ok (run_liveOperator ho)]
        have absent : old ∉ op.outputs := by
          rcases bad with e | ⟨p, e⟩ | e | ⟨op', e, absent⟩
          · rw [hx] at e; cases e
          · rw [(h.producer_iff hx p).2 e] at hp; cases hp
          · rw [ho] at e; cases e
          · rw [ho] at e; cases e; exact absent
        have contains : (!op.outputs.contains old) = true := by simpa using absent
        simp only [contains, if_true]
        exact ⟨_, rfl⟩

/-- The operator that `addOperator` adds. -/
def newOperator (g : Graph α) (kind : OperatorKind α) (inputs outputs : List VariableId) :
    Operator α := { id := g.freshOperator, kind, inputs, outputs }

theorem run_checkOutputs {inputs outputs : List VariableId} (before : List VariableId)
    (good : ∀ v ∈ outputs, (∃ x, g.variableAt? v = some x ∧ x.producer = none ∧
      x.isConstant = false) ∧ v ∉ inputs)
    (nodup : (before ++ outputs).Nodup) :
    checkOutputs o inputs before outputs g = .ok ⟨⟩ g := by
  induction outputs generalizing before with
  | nil => rfl
  | cons v rest ih =>
    obtain ⟨⟨x, hx, hp, hc⟩, hi⟩ := good v List.mem_cons_self
    have new : v ∉ before := fun hv =>
      (List.nodup_append.1 nodup).2.2 v hv v List.mem_cons_self rfl
    have twice : (before.contains v || inputs.contains v) = false := by simp [new, hi]
    rw [checkOutputs, run_bind_ok (run_get g)]
    simp only [hx, hp, hc, twice]
    exact ih _ (fun w hw => good w (List.mem_cons_of_mem v hw)) (by simpa using nodup)

theorem checkOutputs_ok_or_error (g : Graph α) (o : OperatorId)
    (inputs before outputs : List VariableId) :
    checkOutputs o inputs before outputs g = .ok ⟨⟩ g ∨
      ∃ e, checkOutputs o inputs before outputs g = .error e g := by
  induction outputs generalizing before with
  | nil => exact .inl rfl
  | cons v rest ih =>
    rw [checkOutputs, run_bind_ok (run_get g)]
    cases hx : g.variableAt? v with
    | none => exact .inr ⟨_, rfl⟩
    | some x =>
      cases hp : x.producer with
      | some p => simp only [hp]; exact .inr ⟨_, rfl⟩
      | none =>
        simp only [hp]
        by_cases hc : x.isConstant = true
        · simp only [hc, if_true]; exact .inr ⟨_, rfl⟩
        · simp only [hc]
          by_cases twice : (before.contains v || inputs.contains v) = true
          · simp only [twice, if_true]; exact .inr ⟨_, rfl⟩
          · simp only [twice]; exact ih _

theorem good_of_checkOutputs {inputs outputs before : List VariableId} {g' : Graph α} {u : PUnit}
    (run : checkOutputs o inputs before outputs g = .ok u g') :
    (∀ v ∈ outputs, (∃ x, g.variableAt? v = some x ∧ x.producer = none ∧
      x.isConstant = false) ∧ v ∉ inputs) ∧ outputs.Nodup ∧ ∀ v ∈ outputs, v ∉ before := by
  induction outputs generalizing before with
  | nil => exact ⟨(fun _ h => nomatch h), List.nodup_nil, (fun _ h => nomatch h)⟩
  | cons v rest ih =>
    rw [checkOutputs, run_bind_ok (run_get g)] at run
    cases hx : g.variableAt? v with
    | none => rw [hx] at run; cases run
    | some x =>
      rw [hx] at run
      cases hp : x.producer with
      | some p => simp only [hp] at run; cases run
      | none =>
        simp only [hp] at run
        by_cases hc : x.isConstant = true
        · simp only [hc, if_true] at run; cases run
        · simp only [hc] at run
          by_cases twice : (before.contains v || inputs.contains v) = true
          · simp only [twice, if_true] at run; cases run
          · simp only [twice] at run
            obtain ⟨good, nodup, new⟩ := ih run
            simp only [Bool.or_eq_true, List.contains_iff_mem, not_or] at twice
            refine ⟨fun w hw => ?_, List.nodup_cons.2 ⟨fun hv => ?_, nodup⟩, fun w hw => ?_⟩
            · rcases List.mem_cons.1 hw with rfl | hw
              · exact ⟨⟨x, hx, hp, by simpa using hc⟩, twice.2⟩
              · exact good w hw
            · exact new v hv (List.mem_append_right _ (List.mem_singleton_self v))
            · rcases List.mem_cons.1 hw with rfl | hw
              · exact twice.1
              · exact fun hb => new w hw (List.mem_append_left _ hb)

/-- What `addOperator` asks of its operands. -/
structure Addable (g : Graph α) (inputs outputs : List VariableId) : Prop where
  inputs_live : ∀ v ∈ inputs, ∃ x, g.variableAt? v = some x
  outputs_free : ∀ v ∈ outputs, (∃ x, g.variableAt? v = some x ∧ x.producer = none ∧
    x.isConstant = false) ∧ v ∉ inputs
  outputs_nodup : outputs.Nodup

theorem operatorAt?_push (g : Graph α) (op : Operator α) (p : OperatorId) :
    ({ g with operatorSlots := g.operatorSlots.push op } : Graph α).operatorAt? p =
      if p = g.freshOperator then some op else g.operatorAt? p := by
  show (g.operatorSlots.push op).get? p.index = _
  rw [Arena.get?_push]
  by_cases e : p = g.freshOperator
  · subst e
    have slot : g.freshOperator.index = g.operatorSlots.size := rfl
    rw [if_pos slot, if_pos rfl]
  · have ne : p.index ≠ g.operatorSlots.size := fun h => e (by cases p; cases h; rfl)
    rw [if_neg ne, if_neg e]
    rfl

/-- The check that every operand is live. -/
theorem run_inputCheck (v : VariableId) :
    (do
      if ((← get).variableAt? v).isNone then
        throw (.atOperator o (.inputNotLive v)) : Edit α Unit) g =
      match g.variableAt? v with
      | some _ => .ok ⟨⟩ g
      | none => .error (.atOperator o (.inputNotLive v)) g := by
  rw [run_bind_ok (run_get g)]
  cases g.variableAt? v <;> rfl

/-- What `addOperator` does to the records of a graph. -/
theorem run_addOperator (fresh : o = g.freshOperator) (kind : OperatorKind α)
    {inputs outputs : List VariableId} (good : Addable g inputs outputs) : ∃ g',
      Relinked g g' (fun v x =>
        let x := if v ∈ inputs then withConsumer o x else x
        if v ∈ outputs then withProducer (some o) x else x) ∧
      addOperator kind inputs outputs g = .ok o { g' with
        operatorSlots := g'.operatorSlots.push (newOperator g kind inputs outputs) } := by
  subst fresh
  obtain ⟨g₁, run₁, rel₁⟩ := forM_updateVariable (withConsumer_idem (o := g.freshOperator)) inputs g
    fun v hv => by
      obtain ⟨x, hx⟩ := good.inputs_live v hv
      rw [hx]; rfl
  obtain ⟨g₂, run₂, rel₂⟩ := forM_updateVariable (f := withProducer (some g.freshOperator))
    (fun _ => rfl) outputs g₁ fun v hv => by
      obtain ⟨⟨x, hx, _⟩, _⟩ := good.outputs_free v hv
      rw [rel₁.live, hx]; rfl
  refine ⟨g₂, rel₁.trans rel₂, ?_⟩
  rw [addOperator, run_bind_ok (run_get g)]
  refine (run_bind_ok (forM_check _ g inputs fun v hv => ?_)).trans ?_
  · obtain ⟨x, hx⟩ := good.inputs_live v hv
    rw [run_inputCheck, hx]
  refine (run_bind_ok (run_checkOutputs [] good.outputs_free
    good.outputs_nodup)).trans ?_
  exact (run_bind_ok run₁).trans (run_bind_ok run₂)

theorem addOperator_yields (h : g.Linked) (kind : OperatorKind α)
    {inputs outputs : List VariableId} (good : Addable g inputs outputs) :
    Yields (addOperator kind inputs outputs) g g.freshOperator (g.outline.setOperator
      g.freshOperator (some (newOperator g kind inputs outputs))) := by
  let o := g.freshOperator
  obtain ⟨g₂, rel, run⟩ := run_addOperator (o := o) rfl kind good
  have unread (p : OperatorId) (v : VariableId) (hr : g.outline.Reads p v) : p ≠ o := by
    rintro rfl
    obtain ⟨op, hp, _⟩ := hr
    cases hp.symm.trans (operatorAt?_fresh g)
  refine ⟨_, run, h.relink (o := o) (some (newOperator g kind inputs outputs))
    (fun p => ?_) rel.variableAt? rel.inputs rel.outputs (fun op hop => ?_) fun v x hx => ?_⟩
  · have same := operatorAt?_push g (newOperator g kind inputs outputs) p
    show (g₂.operatorSlots.push _).get? p.index = _
    rw [rel.operators]
    exact same
  · cases hop
    refine ⟨rfl, good.outputs_nodup, fun v hv => live_iff.2 (good.inputs_live v hv), fun v hv => ?_⟩
    obtain ⟨⟨x, hx, _⟩, _⟩ := good.outputs_free v hv
    exact live_iff.2 ⟨x, hx⟩
  · have notConsumer : o ∉ x.consumers := fun hm =>
      unread o v ((h.mem_consumers hx o).1 hm) rfl
    have notProducer : x.producer ≠ some o := fun hp => by
      obtain ⟨op, ho, _⟩ := (h.producer_iff hx o).1 hp
      cases ho.symm.trans (operatorAt?_fresh g)
    have nodup := h.consumers_nodup hx
    refine ⟨?_, ?_, ?_, fun p => ?_, fun p => ?_⟩
    · by_cases hi : v ∈ inputs <;> by_cases hw : v ∈ outputs <;> simp [hi, hw]
    · by_cases hi : v ∈ inputs <;> by_cases hw : v ∈ outputs <;> simp [hi, hw]
    · have added := nodup_withConsumer (o := o) x nodup
      by_cases hi : v ∈ inputs <;> by_cases hw : v ∈ outputs <;> simp [hi, hw, nodup, added]
    · by_cases hi : v ∈ inputs <;> by_cases hw : v ∈ outputs <;> by_cases e : p = o <;>
        simp [hi, hw, e, mem_withConsumer, newOperator, notConsumer]
    · by_cases hw : v ∈ outputs
      · obtain ⟨⟨y, hy, free, _⟩, _⟩ := good.outputs_free v hw
        cases hx.symm.trans hy
        by_cases e : p = o
        · simp [hw, e, newOperator]
        · have notSelf : o ≠ p := fun h => e h.symm
          simp [hw, e, notSelf, free]
      · by_cases hi : v ∈ inputs <;> by_cases e : p = o <;>
          simp [hi, hw, e, newOperator, notProducer]

/-- The operator after the one that `addOperator` adds has the next id. -/
theorem addOperator_fresh {kind : OperatorKind α} {inputs outputs : List VariableId}
    (good : Addable g inputs outputs) {g' : Graph α}
    (run : addOperator kind inputs outputs g = .ok o g') :
    g'.freshOperator = ⟨g.freshOperator.index + 1⟩ := by
  obtain ⟨g₂, rel, run'⟩ := run_addOperator rfl kind good
  cases run.symm.trans run'
  simp [freshOperator, Arena.size, Arena.push, rel.operators]

theorem addOperator_error (kind : OperatorKind α) {inputs outputs : List VariableId}
    (bad : ¬Addable g inputs outputs) : ∃ e, addOperator kind inputs outputs g = .error e g := by
  rw [addOperator, run_bind_ok (run_get g)]
  by_cases live : ∀ v ∈ inputs, ∃ x, g.variableAt? v = some x
  · suffices ∃ e, checkOutputs ⟨g.operatorSlots.size⟩ inputs [] outputs g = .error e g by
      obtain ⟨e, he⟩ := this
      refine ⟨e, (run_bind_ok (forM_check _ g inputs fun v hv => ?_)).trans (run_bind_error he)⟩
      obtain ⟨x, hx⟩ := live v hv
      rw [run_inputCheck, hx]
    rcases checkOutputs_ok_or_error g ⟨g.operatorSlots.size⟩ inputs [] outputs with ok | error
    · obtain ⟨free, nodup, _⟩ := good_of_checkOutputs ok
      exact absurd ⟨live, free, nodup⟩ bad
    · exact error
  · obtain ⟨v, hv⟩ := Classical.not_forall.1 live
    obtain ⟨hv, dead⟩ := Classical.not_imp.1 hv
    have none : g.variableAt? v = none := by
      cases hx : g.variableAt? v with
      | none => rfl
      | some x => exact absurd ⟨x, hx⟩ dead
    have fails := forM_check_error (fun v => (do
      if ((← get).variableAt? v).isNone then
        throw (.atOperator ⟨g.operatorSlots.size⟩ (.inputNotLive v)) : Edit α Unit)) g inputs
      (fun v _ => by
      rw [run_inputCheck]
      cases g.variableAt? v with
      | none => exact .inr ⟨_, rfl⟩
      | some x => exact .inl rfl) ⟨v, hv, by
      rw [run_inputCheck, none]
      exact fun h => nomatch h⟩
    obtain ⟨e, he⟩ := fails
    exact ⟨e, run_bind_error he⟩

end Edit

end TensorGraph
