import TensorGraph.Pass.Folding
import TensorGraph.Proofs.Edit.Operators
import TensorGraph.Proofs.Evaluation.Operator
import TensorGraph.Proofs.Pass.Sweep

/-!
# TensorGraph.Proofs.Pass.Folding

Computing what depends on constants.

* `FoldQuiet`: an operator reads a value that is not constant, and a batch normalization has
  statistics that are not.
* `foldStep_rule`: after a step its operator is so, or gone. A step makes more values constant, but
  only such as later operators read.
-/

namespace TensorGraph

variable {α : Type} {O O' : Outline α} {o : OperatorId} {op : Operator α} {v w : VariableId}

open TensorGraph.Graph Edit Pass

def FoldQuiet (O : Outline α) (q : OperatorId) : Prop :=
  ∀ op, O.operators q = some op → (∃ u ∈ op.inputs, O.payload? u = none) ∧
    ∀ eps, op.kind = .batchNormalization eps → ∃ u ∈ op.inputs.tail, O.payload? u = none

/-- The operator `o` on constants goes, and its result becomes a constant. -/
structure Constant (O : Outline α) (o : OperatorId) (O' : Outline α) (op : Operator α)
    (v : VariableId) : Prop where
  live : O.operators o = some op
  outputs : op.outputs = [v]
  operands : ∀ u ∈ op.inputs, O.payload? u ≠ none
  made : ∃ t r, O.tensors v = some t ∧
    O' = (O.setOperator o none).setTensor v { t with payload := some r }

variable [Scalar α]

/-- A batch normalization `op` with constant statistics, and the scale and shift per channel that
it becomes. -/
inductive Normalized (O O' : Outline α) (op op' : Operator α) : Prop
  | intro (eps : α) (x a b c d s t : VariableId) (gamma beta mean variance : Array α)
      (kind : op.kind = .batchNormalization eps) (inputs : op.inputs = [x, a, b, c, d])
      (gamma_eq : O.payload? a = some gamma) (beta_eq : O.payload? b = some beta)
      (mean_eq : O.payload? c = some mean) (variance_eq : O.payload? d = some variance)
      (inputs' : op'.inputs = [x, s, t])
      (scale_eq : O'.payload? s = some (foldedScale eps gamma variance))
      (bias_eq : O'.payload? t = some (foldedBias beta mean (foldedScale eps gamma variance)))

/-- A result becomes the constant that it is, or a batch normalization a scale and shift per
channel. -/
def FoldChange (rank : OperatorId → Nat) (O : Outline α) (o : OperatorId) (O' : Outline α) : Prop :=
  (∃ op v r, Constant O o O' op v ∧ O'.payload? v = some r ∧
    op.kind.compute (op.inputs.map O.shape) (O.shape v) (op.inputs.filterMap O.payload?) =
      some r) ∨
  ∃ op op' w, O.operators o = some op ∧ Collapse rank O O' o o [] op' w ∧
    op'.kind = .axiswiseAffine 1 none ∧ (∃ u ∈ op'.inputs, O'.payload? u = none) ∧
    Normalized O O' op op'

/-! ## Results that become constants -/

namespace Constant

variable {g : Graph α} {rank : OperatorId → Nat}

omit [Scalar α] in
theorem operators (h : Constant O o O' op v) {p : OperatorId} {opp : Operator α}
    (hp : O'.operators p = some opp) : p ≠ o ∧ O.operators p = some opp := by
  obtain ⟨t, r, _, rfl⟩ := h.made
  rw [Outline.setTensor_operators, Outline.setOperator_operators] at hp
  split at hp
  · cases hp
  · next ne => exact ⟨ne, hp⟩

omit [Scalar α] in
theorem shape_eq (h : Constant O o O' op v) (u : VariableId) : O'.shape u = O.shape u := by
  obtain ⟨t, r, ht, rfl⟩ := h.made
  by_cases e : u = v
  · simp [Outline.shape, e, ht]
  · simp [Outline.shape, e]

omit [Scalar α] in
theorem tensors_eq (h : Constant O o O' op v) {u : VariableId} (ne : u ≠ v) :
    O'.tensors u = O.tensors u := by
  obtain ⟨t, r, _, rfl⟩ := h.made
  simp [ne]

omit [Scalar α] in
theorem payload?_eq (h : Constant O o O' op v) {u : VariableId} (ne : u ≠ v) :
    O'.payload? u = O.payload? u := by
  rw [Outline.payload?, Outline.payload?, h.tensors_eq ne]

omit [Scalar α] in
theorem constant (h : Constant O o O' op v) : O'.payload? v ≠ none := by
  obtain ⟨t, r, _, rfl⟩ := h.made
  simp [Outline.payload?]

omit [Scalar α] in
theorem inputs (h : Constant O o O' op v) : O'.inputs = O.inputs := by
  obtain ⟨t, r, _, rfl⟩ := h.made
  rfl

omit [Scalar α] in
theorem outputs_eq (h : Constant O o O' op v) : O'.outputs = O.outputs := by
  obtain ⟨t, r, _, rfl⟩ := h.made
  rfl

omit [Scalar α] in
theorem writes_result (h : Constant O o O' op v) : O.Writes o v :=
  ⟨op, h.live, by rw [h.outputs]; exact List.mem_singleton.2 rfl⟩

omit [Scalar α] in
/-- What is written still is another value. -/
theorem writes (linked : g.Linked) (h : Constant g.outline o O' op v) {a : OperatorId}
    {u : VariableId} (written : O'.Writes a u) : a ≠ o ∧ u ≠ v ∧ g.outline.Writes a u := by
  obtain ⟨opa, ha, hu⟩ := written
  obtain ⟨ne, ha⟩ := h.operators ha
  refine ⟨ne, ?_, opa, ha, hu⟩
  rintro rfl
  exact ne (linked.writer_unique ⟨opa, ha, hu⟩ h.writes_result)

omit [Scalar α] in
theorem reads (h : Constant O o O' op v) {b : OperatorId} {u : VariableId}
    (read : O'.Reads b u) : O.Reads b u := by
  obtain ⟨opb, hb, hu⟩ := read
  exact ⟨opb, (h.operators hb).2, hu⟩

omit [Scalar α] in
theorem operators_other (h : Constant O o O' op v) {p : OperatorId} (ne : p ≠ o) :
    O'.operators p = O.operators p := by
  obtain ⟨t, r, _, rfl⟩ := h.made
  simp [ne]

theorem sound (linked : g.Linked) (sound : g.outline.Sound rank)
    (h : Constant g.outline o O' op v) : O'.Sound rank where
  result {p opp} hp := by
    obtain ⟨u, hu, typed⟩ := sound.result (h.operators hp).2
    refine ⟨u, hu, ?_⟩
    have shapes : O'.shape = g.outline.shape := funext h.shape_eq
    rw [shapes, typed]
  computed written := by
    obtain ⟨_, ne, written⟩ := h.writes linked written
    rw [h.payload?_eq ne]
    exact sound.computed written
  positive u := h.shape_eq u ▸ sound.positive u
  inputs_free {u} hu := by
    rw [h.inputs] at hu
    obtain ⟨unset, free⟩ := sound.inputs_free hu
    have ne : u ≠ v := fun e => free o (e ▸ h.writes_result)
    exact ⟨by rw [h.payload?_eq ne, unset], fun a written => free a (h.writes linked written).2.2⟩
  sourced {u} hu := by
    by_cases e : u = v
    · exact .inl (e ▸ h.constant)
    rw [h.payload?_eq e, h.inputs]
    rw [h.outputs_eq] at hu
    refine (sound.sourced (hu.imp_left fun ⟨b, read⟩ => ⟨b, h.reads read⟩)).imp_right
      (Or.imp_left fun ⟨a, written⟩ => ?_)
    have ne : a ≠ o := by
      rintro rfl
      have hu := (Outline.writes_iff h.live).1 written
      rw [h.outputs] at hu
      exact e (List.mem_singleton.1 hu)
    obtain ⟨opa, ha, hu⟩ := written
    exact ⟨a, opa, (h.operators_other ne).trans ha, hu⟩
  used {a u} written := by
    obtain ⟨_, _, written⟩ := h.writes linked written
    rw [h.outputs_eq]
    refine (sound.used written).imp_left fun ⟨c, opc, hc, hu⟩ => ?_
    -- What is computed is no operand of the operator that went.
    have ne : c ≠ o := by
      rintro rfl
      cases h.live.symm.trans hc
      exact h.operands u hu (sound.computed written)
    exact ⟨c, opc, (h.operators_other ne).trans hc, hu⟩
  ranked a b := by
    rintro ⟨u, written, read⟩
    exact sound.ranked a b ⟨u, (h.writes linked written).2.2, h.reads read⟩

omit [Scalar α] in
theorem keeps (linked : g.Linked) (h : Constant g.outline o O' op v) : g.outline.Keeps O' where
  inputs := h.inputs
  outputs := h.outputs_eq
  designated u hu := by
    obtain ⟨t, ht⟩ := linked.designated_live hu
    obtain ⟨tv, r, hv, rfl⟩ := h.made
    by_cases e : u = v
    · subst e
      cases ht.symm.trans hv
      exact ⟨t, { t with payload := some r }, ht, if_pos rfl, rfl, rfl⟩
    · exact ⟨t, t, ht, by rw [Outline.setTensor_tensors, if_neg e]; exact ht, rfl, rfl⟩
  operators p opp hp := ⟨opp, (h.operators hp).2⟩

end Constant

section

variable {g : Graph α} {rank : OperatorId → Nat}

omit [Scalar α] in
theorem filterMap_payload_sizes (h : g.Linked) {vs : List VariableId}
    (constant : ∀ u ∈ vs, g.outline.payload? u ≠ none) :
    (vs.filterMap g.payload?).map Array.size = vs.map fun u => (g.outline.shape u).size := by
  induction vs with
  | nil => rfl
  | cons u vs ih =>
    obtain ⟨d, hd⟩ := Option.ne_none_iff_exists'.1 (constant u List.mem_cons_self)
    rw [List.filterMap_cons_some (f := g.payload?) (by rw [Graph.payload?_eq, hd]),
      List.map_cons, List.map_cons, payload?_size h hd,
      ih fun u hu => constant u (List.mem_cons_of_mem _ hu)]

theorem foldOperator_change (h : g.Linked) (sound : g.outline.Sound rank)
    (ho : g.operatorAt? o = some op) (constant : ∀ u ∈ op.inputs, g.outline.payload? u ≠ none) :
    ∃ O', Yields (foldOperator op) g ⟨⟩ O' ∧ FoldChange rank g.outline o O' := by
  obtain ⟨v, outputs, _⟩ := sound.result ho
  have written : g.outline.Writes o v := ⟨op, ho, by rw [outputs]; exact List.mem_singleton.2 rfl⟩
  obtain ⟨t, ht⟩ := h.output_live written
  obtain ⟨r, run, size⟩ :=
    evaluateOperator_ok sound ho outputs (filterMap_payload_sizes h constant)
  rw [Outline.shape_of ht] at size
  let O' := (g.outline.setOperator o none).setTensor v { t with payload := some r }
  obtain ⟨g₁, removed, h₁, e₁⟩ := removeOperator_yields h ho
  have ht₁ : g₁.outline.tensors v = some t := by rw [e₁]; exact ht
  have free : ∀ a, ¬g₁.outline.Writes a v := by
    rintro a ⟨opa, ha, hv⟩
    rw [e₁, Outline.setOperator_operators] at ha
    split at ha
    · cases ha
    · next ne => exact ne (h.writer_unique ⟨opa, ha, hv⟩ written)
  obtain ⟨g₂, set, h₂, e₂⟩ := setPayload_yields h₁ ht₁ size free
  have computed : op.kind.compute (op.inputs.map g.outline.shape) (g.outline.shape v)
      (op.inputs.filterMap g.outline.payload?) = some r := by
    rw [← evaluateOperator_result run outputs]
    exact congrArg _ (List.filterMap_congr fun u _ => (Graph.payload?_eq g u).symm)
  refine ⟨O', ⟨g₂, ?_, h₂, by rw [e₂, e₁]⟩, .inl ⟨op, v, r, ⟨ho, outputs, constant, t, r, ht, rfl⟩,
    by simp [O', Outline.payload?], computed⟩⟩
  have replaced : replaceByConstant op r g = .ok ⟨⟩ g₂ := by
    rw [replaceByConstant, h.operator_id ho, run_bind_ok removed, outputs]
    exact set
  rw [foldOperator, run_bind_ok (run_get g)]
  simp only [run]
  exact replaced

/-! ## Batch normalizations -/

omit [Scalar α] in
theorem payload_size_of_shape (h : g.Linked) {u : VariableId} {d : Array α} {n : Nat}
    (hd : g.payload? u = some d) (shape : g.outline.shape u = [n]) : d.size = n := by
  rw [Graph.payload?_eq] at hd
  rw [payload?_size h hd, shape]
  exact Nat.mul_one n

/-- The parameters that are left have an element for each channel. -/
theorem folded_sizes (h : g.Linked) (eps : α) {a b c d : VariableId} {n : Nat}
    (shapes : ∀ u ∈ [a, b, c, d], g.outline.shape u = [n]) {gamma beta mean variance : Array α}
    (ha : g.payload? a = some gamma) (hb : g.payload? b = some beta)
    (hc : g.payload? c = some mean) (hd : g.payload? d = some variance) :
    (foldedScale eps gamma variance).size = n ∧
      (foldedBias beta mean (foldedScale eps gamma variance)).size = n := by
  have sizes : gamma.size = n ∧ beta.size = n ∧ mean.size = n ∧ variance.size = n :=
    ⟨payload_size_of_shape h ha (shapes a (by simp)),
      payload_size_of_shape h hb (shapes b (by simp)),
      payload_size_of_shape h hc (shapes c (by simp)),
      payload_size_of_shape h hd (shapes d (by simp))⟩
  simp [foldedScale, foldedBias, sizes]

/-- A batch normalization with constant statistics reads two constants instead, and its kind is
another one. -/
theorem normalization_collapse (h : g.Linked) (sound : g.outline.Sound rank)
    (ho : g.operatorAt? o = some op) {x : VariableId} {us : List VariableId}
    (inputs : op.inputs = x :: us) (statistics : ∀ u ∈ us, g.outline.payload? u ≠ none)
    {w : VariableId} (outputs : op.outputs = [w]) {O₁ : Outline α} {s t : VariableId} {n : Nat}
    {p q : Array α} (two : TwoConstants g.outline O₁ s t [n] [n] p q)
    (shape : g.outline.shape x = g.outline.shape w) (dim : (g.outline.shape w)[1]? = some n) :
    Collapse rank g.outline (O₁.setOperator o
        (some { op with inputs := [x, s, t], kind := .axiswiseAffine 1 none }))
      o o [] { op with inputs := [x, s, t], kind := .axiswiseAffine 1 none } w := by
  have live : g.outline.Live x := h.input_live ⟨op, ho, by rw [inputs]; exact List.mem_cons_self⟩
  have single {u : VariableId} (hu : u ∈ x :: us) (free : g.outline.payload? u = none) : u = x :=
    (List.mem_cons.1 hu).resolve_right fun hm => statistics u hm free
  refine collapse_self sound ho (two.grows.splice_one ho) rfl outputs ?_ (fun u hu => ?_)
    (fun u hu free => ?_) fun u live' free count => ?_
  · show axiswiseAffineShape 1 [O₁.shape x, O₁.shape s, O₁.shape t] = _
    rw [two.grows.shape_eq live, two.shape_fst, two.shape_snd, shape]
    exact axiswiseAffineShape_ok_iff.2 ⟨n, dim, rfl⟩
  · rcases List.mem_cons.1 hu with rfl | hu
    · exact .inr (by rw [inputs]; exact List.mem_cons_self)
    · exact .inl (two.constant u hu)
  · rw [inputs] at hu
    rw [single hu free]
    exact List.mem_cons_self
  · have hu : u ∈ [x, s, t] := List.count_pos_iff.1 (count ▸ Nat.one_pos)
    rw [two.eq_of_live live' hu] at free ⊢
    have absent : x ∉ us := fun hm => statistics x hm free
    rw [inputs, List.count_cons_self, List.count_eq_zero_of_not_mem absent]

theorem foldNormalization_change (h : g.Linked) (sound : g.outline.Sound rank)
    (ho : g.operatorAt? o = some op) {eps : α} (kind : op.kind = .batchNormalization eps)
    {x a b c d : VariableId} (inputs : op.inputs = [x, a, b, c, d])
    (unset : g.outline.payload? x = none) {gamma beta mean variance : Array α}
    (ha : g.payload? a = some gamma) (hb : g.payload? b = some beta)
    (hc : g.payload? c = some mean) (hd : g.payload? d = some variance) :
    ∃ O', Yields (foldNormalization op eps x a b gamma beta mean variance) g ⟨⟩ O' ∧
      FoldChange rank g.outline o O' := by
  obtain ⟨_, _, _, _, _, w, channels, inputs', outputs, shape, shapes, dim⟩ :=
    sound.batchNormalization ho kind
  cases inputs.symm.trans inputs'
  obtain ⟨scale_size, bias_size⟩ := folded_sizes h eps
    (fun u hu => List.eq_of_mem_replicate (shapes ▸ List.mem_map_of_mem hu)) ha hb hc hd
  have positive : 0 ∉ [channels] := fun zero =>
    sound.positive w (List.mem_singleton.1 zero ▸ List.mem_of_getElem? dim)
  obtain ⟨s, t, O₁, two, added⟩ := addConstants h (g.derivedName a "scale") (g.derivedName b "bias")
    [channels] [channels] (scale_size.trans (Nat.mul_one _).symm)
    (bias_size.trans (Nat.mul_one _).symm) positive positive
  have live : g.outline.Live x := h.input_live ⟨op, ho, by rw [inputs]; exact List.mem_cons_self⟩
  let op' : Operator α := { op with inputs := [x, s, t], kind := .axiswiseAffine 1 none }
  let rewrite (s t : VariableId) : Edit α Unit := do
    Edit.setInputs o [x, s, t]
    Edit.setKind o (.axiswiseAffine 1 none)
  have rest : ∀ g₁, g₁.Linked → g₁.outline = O₁ →
      Yields (rewrite s t) g₁ ⟨⟩ (O₁.setOperator o (some op')) := by
    rintro g₁ h₁ rfl
    have ho₁ : g₁.operatorAt? o = some op := by
      rw [← outline_operators, two.grows.operators]
      exact ho
    exact setInputs_setKind_yields h₁ ho₁ (two.live live) _
  simp only [Graph.payload?_eq] at ha hb hc hd
  refine ⟨O₁.setOperator o (some op'), ?_, .inr ⟨op, op', w, ho, ?_, rfl,
    ⟨x, List.mem_cons_self, ?_⟩,
    .intro eps x a b c d s t gamma beta mean variance kind inputs ha hb hc hd rfl two.payload_fst
      two.payload_snd⟩⟩
  · obtain ⟨g', run, after⟩ := added rest
    refine ⟨g', ?_, after⟩
    rw [foldNormalization, h.operator_id ho, run_bind_ok (run_get g), scale_size]
    exact run
  · exact normalization_collapse h sound ho inputs (by simp [ha, hb, hc, hd]) outputs two shape dim
  · exact (two.grows.payload?_eq live).trans unset

theorem foldStep_normalization {eps : α} (kind : op.kind = .batchNormalization eps)
    {x a b c d : VariableId} (inputs : op.inputs = [x, a, b, c, d])
    (computed : op.inputs.all g.isConstant = false) (report : PassReport) :
    foldStep op report g = (match g.payload? a, g.payload? b, g.payload? c, g.payload? d with
      | some gamma, some beta, some mean, some variance => do
        foldNormalization op eps x a b gamma beta mean variance
        return report.record 0
      | _, _, _, _ => return report : Edit α PassReport) g := by
  rw [foldStep, run_bind_ok (run_get g), computed]
  simp only [kind, inputs]
  cases g.payload? a <;> cases g.payload? b <;> cases g.payload? c <;> cases g.payload? d <;> rfl

theorem foldStep_idle (sound : g.outline.Sound rank)
    (ho : g.operatorAt? o = some op) (quiet : FoldQuiet g.outline o) (report : PassReport) :
    foldStep op report g = .ok report g := by
  obtain ⟨⟨u, hu, unset⟩, statistics⟩ := quiet op ho
  have computed : op.inputs.all g.isConstant = false := by
    by_contra all
    rw [Bool.not_eq_false, List.all_eq_true] at all
    exact isConstant_iff.1 (all u hu) unset
  cases kind : op.kind with
  | batchNormalization eps =>
    obtain ⟨x, a, b, c, d, w, channels, inputs, _⟩ := sound.batchNormalization ho kind
    obtain ⟨u, hu, unset⟩ := statistics eps kind
    rw [inputs, List.tail_cons] at hu
    rw [foldStep_normalization kind inputs computed]
    rw [← Graph.payload?_eq] at unset
    cases ha : g.payload? a with
    | none => rfl
    | some gamma => cases hb : g.payload? b with
      | none => rfl
      | some beta => cases hc : g.payload? c with
        | none => rfl
        | some mean => cases hd : g.payload? d with
          | none => rfl
          | some variance =>
            simp only [List.mem_cons, List.not_mem_nil, or_false] at hu
            rcases hu with rfl | rfl | rfl | rfl
            · cases unset.symm.trans ha
            · cases unset.symm.trans hb
            · cases unset.symm.trans hc
            · cases unset.symm.trans hd
  | _ =>
    rw [foldStep, run_bind_ok (run_get g), computed]
    simp only [kind]
    rfl

theorem foldStep_outcome (h : g.Linked) (sound : g.outline.Sound rank)
    (ho : g.operatorAt? o = some op) (report : PassReport) :
    FoldQuiet g.outline o ∨ ∃ report' O', report'.changed = true ∧
      Yields (foldStep op report) g report' O' ∧ FoldChange rank g.outline o O' := by
  by_cases constant : ∀ u ∈ op.inputs, g.outline.payload? u ≠ none
  · obtain ⟨O', ⟨g', run, rest⟩, change⟩ := foldOperator_change h sound ho constant
    refine .inr ⟨report.record 1, O', rfl, ⟨g', ?_, rest⟩, change⟩
    have all : op.inputs.all g.isConstant = true :=
      List.all_eq_true.2 fun u hu => isConstant_iff.2 (constant u hu)
    rw [foldStep, run_bind_ok (run_get g), all]
    exact run_bind_ok run
  simp only [not_forall, not_not] at constant
  obtain ⟨u, hu, unset⟩ := constant
  by_cases statistics : ∃ eps, op.kind = .batchNormalization eps ∧
      ∀ u ∈ op.inputs.tail, g.outline.payload? u ≠ none
  · obtain ⟨eps, kind, statistics⟩ := statistics
    obtain ⟨x, a, b, c, d, w, channels, inputs, _⟩ := sound.batchNormalization ho kind
    rw [inputs, List.tail_cons] at statistics
    rw [inputs] at hu
    have free : g.outline.payload? x = none :=
      (List.mem_cons.1 hu).elim (fun e => e ▸ unset) fun hu => absurd unset (statistics u hu)
    have computed : op.inputs.all g.isConstant = false := by
      by_contra all
      rw [Bool.not_eq_false, List.all_eq_true] at all
      exact isConstant_iff.1 (all x (by rw [inputs]; exact List.mem_cons_self)) free
    have payload {v : VariableId} (hv : v ∈ [a, b, c, d]) : ∃ r, g.payload? v = some r := by
      rw [Graph.payload?_eq]
      exact Option.ne_none_iff_exists'.1 (statistics v hv)
    obtain ⟨gamma, ha⟩ := payload (v := a) (by simp)
    obtain ⟨beta, hb⟩ := payload (v := b) (by simp)
    obtain ⟨mean, hc⟩ := payload (v := c) (by simp)
    obtain ⟨variance, hd⟩ := payload (v := d) (by simp)
    obtain ⟨O', ⟨g', run, rest⟩, change⟩ :=
      foldNormalization_change h sound ho kind inputs free ha hb hc hd
    refine .inr ⟨report.record 0, O', rfl, ⟨g', ?_, rest⟩, change⟩
    rw [foldStep_normalization kind inputs computed, ha, hb, hc, hd]
    exact run_bind_ok run
  · refine .inl fun op' ho' => ?_
    cases ho.symm.trans ho'
    refine ⟨⟨u, hu, unset⟩, fun eps kind => ?_⟩
    by_contra all
    simp only [not_exists, not_and] at all
    exact statistics ⟨eps, kind, all⟩

theorem FoldChange.settles (h : g.Linked) (sound : g.outline.Sound rank)
    (change : FoldChange rank g.outline o O')
    (before : ∀ q, rank q < rank o → FoldQuiet g.outline q) (q : OperatorId)
    (hq : rank q < rank o ∨ q = o) : FoldQuiet O' q := by
  rcases change with ⟨op, v, _, change, _⟩ | ⟨_, op', w, _, collapse, kind, operand, _⟩
  · intro opq live
    obtain ⟨ne, live⟩ := change.operators live
    have lt := hq.resolve_right ne
    -- The new constant is no operand of an earlier operator.
    have same {u : VariableId} (hu : u ∈ opq.inputs) : O'.payload? u = g.outline.payload? u := by
      refine change.payload?_eq ?_
      rintro rfl
      exact sound.not_reads change.writes_result (Nat.le_of_lt lt) ⟨opq, live, hu⟩
    obtain ⟨⟨u, hu, unset⟩, statistics⟩ := before q lt opq live
    refine ⟨⟨u, hu, (same hu).trans unset⟩, fun eps kind => ?_⟩
    obtain ⟨u, hu, unset⟩ := statistics eps kind
    exact ⟨u, hu, (same (List.mem_of_mem_tail hu)).trans unset⟩
  · intro opq live
    by_cases e : q = o
    · subst e
      cases collapse.operators_host.symm.trans live
      exact ⟨operand, fun eps kind' => nomatch kind.symm.trans kind'⟩
    · have other : q ∉ [o] := fun hm => e (List.mem_singleton.1 hm)
      rw [collapse.operators_other q other] at live
      have same {u : VariableId} (hu : u ∈ opq.inputs) : O'.payload? u = g.outline.payload? u :=
        collapse.payload?_eq (h.input_live ⟨opq, live, hu⟩)
      obtain ⟨⟨u, hu, unset⟩, statistics⟩ := before q (hq.resolve_right e) opq live
      refine ⟨⟨u, hu, (same hu).trans unset⟩, fun eps kind => ?_⟩
      obtain ⟨u, hu, unset⟩ := statistics eps kind
      exact ⟨u, hu, (same (List.mem_of_mem_tail hu)).trans unset⟩

theorem foldStep_rule : StepRule (α := α) foldStep FoldQuiet FoldChange where
  dead ho := fun _ live => nomatch ho.symm.trans live
  pruned {O q} quiet := by
    have unset {u : VariableId} (hu : O.payload? u = none) : O.pruned.payload? u = none := by
      by_contra constant
      exact Outline.payload?_of_pruned constant hu
    intro op live
    obtain ⟨⟨u, hu, free⟩, statistics⟩ := quiet op live
    refine ⟨⟨u, hu, unset free⟩, fun eps kind => ?_⟩
    obtain ⟨u, hu, free⟩ := statistics eps kind
    exact ⟨u, hu, unset free⟩
  idle report _ sound ho quiet := foldStep_idle sound ho quiet report
  outcome report h sound ho := foldStep_outcome h sound ho report
  sound h sound change := by
    rcases change with ⟨_, _, _, change, _⟩ | ⟨_, _, _, _, collapse, _⟩
    · exact change.sound h sound
    · exact collapse.sound h sound
  keeps h sound change := by
    rcases change with ⟨_, _, _, change, _⟩ | ⟨_, _, _, _, collapse, _⟩
    · exact change.keeps h
    · exact collapse.keeps h
  settles h sound change := change.settles h sound

end

end TensorGraph
