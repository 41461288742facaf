import TensorGraph.Pass.Merging
import TensorGraph.Proofs.Edit.Operators
import TensorGraph.Proofs.Pass.Sweep

/-!
# TensorGraph.Proofs.Pass.Merging

Merging elementwise operators.

* `Mergeable`: the kinds of two operators that become one when a link joins them.
* `flatten_eq`, `flattenSum_eq`: writing a sum out ends, with every nested sum in its place.
* `mergeSum_collapse`: a sum collapses with the sums nested in it, however operands are repeated.
* `mergeStep_rule`: a step merges all that is linked to its operator, and leaves nothing to merge
  there.
-/

namespace TensorGraph

variable {α : Type}

/-- The kinds of two operators that merge, the second one reading what the first one writes. -/
inductive Mergeable : OperatorKind α → OperatorKind α → Prop
  | affine (s b s' b' : α) : Mergeable (.scalarAffine s b) (.scalarAffine s' b')
  | sum (fused : Option (Activation α)) : Mergeable (.elementwiseAdd none) (.elementwiseAdd fused)

theorem mergeable_affine_iff {k : OperatorKind α} {scale bias : α} :
    Mergeable k (.scalarAffine scale bias) ↔ ∃ s b, k = .scalarAffine s b := by
  constructor
  · rintro ⟨s, b⟩
    exact ⟨s, b, rfl⟩
  · rintro ⟨s, b, rfl⟩
    exact .affine s b scale bias

theorem mergeable_sum_iff {k : OperatorKind α} {fused : Option (Activation α)} :
    Mergeable k (.elementwiseAdd fused) ↔ k = .elementwiseAdd none := by
  constructor
  · rintro ⟨⟩
    rfl
  · rintro rfl
    exact .sum fused

open TensorGraph.Graph Edit Pass

theorem nestedSum?_iff {g : Graph α} (h : g.Linked) {o : OperatorId} {v : VariableId}
    {n : Operator α} :
    nestedSum? g o v = some n ↔ g.outline.Link v n.id o ∧ g.operatorAt? n.id = some n ∧
      n.kind = .elementwiseAdd none := by
  unfold nestedSum?
  constructor
  · intro found
    split at found
    · next op hop =>
      obtain ⟨p, link, hp⟩ := Option.bind_eq_some_iff.1 hop
      split at found
      · next kind =>
        cases found
        rw [h.operator_id hp]
        exact ⟨(fusibleProducer?_iff h).1 link, hp, kind⟩
      · cases found
    · cases found
  · rintro ⟨link, hn, kind⟩
    rw [(fusibleProducer?_iff h).2 link, Option.bind_some, hn]
    simp only [kind]

/-- One term of a sum that is one. -/
theorem term_of_sum_one {β : Type} [DecidableEq β] {f : β → Nat} {xs : List β}
    (sum : (xs.map f).sum = 1) {x : β} (hx : x ∈ xs) (positive : 0 < f x) :
    f x = 1 ∧ xs.count x = 1 ∧ ∀ y ∈ xs, 0 < f y → y = x := by
  induction xs with
  | nil => cases hx
  | cons z zs ih =>
    rw [List.map_cons, List.sum_cons] at sum
    have zero (y : β) (hy : y ∈ zs) (empty : (zs.map f).sum = 0) : f y = 0 :=
      List.sum_eq_zero_iff_forall_eq_nat.1 empty (f y) (List.mem_map_of_mem hy)
    by_cases e : x = z
    · subst e
      have one : f x = 1 ∧ (zs.map f).sum = 0 := by omega
      have fresh : x ∉ zs := fun hm => by have := zero x hm one.2; omega
      refine ⟨one.1, by rw [List.count_cons_self, List.count_eq_zero_of_not_mem fresh], ?_⟩
      intro y hy pos
      rcases List.mem_cons.1 hy with rfl | hy
      · rfl
      · have := zero y hy one.2
        omega
    · have hx' := (List.mem_cons.1 hx).resolve_left e
      have least : 0 < (zs.map f).sum := by
        by_contra none_left
        have := zero x hx' (by omega)
        omega
      obtain ⟨one, count, alone⟩ := ih (by omega) hx'
      refine ⟨one, by rw [List.count_cons_of_ne (Ne.symm e), count], fun y hy pos => ?_⟩
      rcases List.mem_cons.1 hy with rfl | hy
      · omega
      · exact alone y hy pos

variable [Scalar α]

/-- What `op` becomes that takes up the operators in `gone`: two scalings with shift as one, or a
sum with the operands of nested sums in their places. -/
inductive Merged (O : Outline α) (gone : List OperatorId) (op merged : Operator α) : Prop
  | affine (p : OperatorId) (inner : Operator α) (v x : VariableId)
      (scale bias innerScale innerBias : α) (mem : p ∈ gone) (live : O.operators p = some inner)
      (inner_kind : inner.kind = .scalarAffine innerScale innerBias)
      (inner_inputs : inner.inputs = [x]) (inner_outputs : inner.outputs = [v])
      (kind : op.kind = .scalarAffine scale bias) (inputs : op.inputs = [v])
      (kind' : merged.kind = composeAffine innerScale innerBias scale bias)
      (inputs' : merged.inputs = [x])
  | sum (fused : Option (Activation α)) (block : VariableId → List VariableId)
      (kind : op.kind = .elementwiseAdd fused) (kind' : merged.kind = .elementwiseAdd fused)
      (inputs' : merged.inputs = op.inputs.flatMap block)
      (blocks : ∀ v ∈ op.inputs, block v = [v] ∨ ∃ p ∈ gone, ∃ n, O.operators p = some n ∧
        n.kind = .elementwiseAdd none ∧ n.inputs = block v ∧ n.outputs = [v])

/-- Operators that one of them takes up. -/
def MergeChange (rank : OperatorId → Nat) (O : Outline α) (o : OperatorId) (O' : Outline α) :
    Prop :=
  ∃ gone op merged w, O.operators o = some op ∧ Collapse rank O O' o o gone merged w ∧
    (∀ k, Mergeable k merged.kind → Mergeable k op.kind) ∧
    (∀ eps, merged.kind ≠ .batchNormalization eps) ∧ Merged O gone op merged ∧
    (∀ c ∈ gone, rank c < rank o ∧ ∀ inner, O.operators c = some inner →
      ∀ k, Mergeable k merged.kind → Mergeable k inner.kind) ∧
    ∀ v p inner, O.Link v p o → O.operators p = some inner → Mergeable inner.kind op.kind →
      p ∈ gone

abbrev MergeQuiet (O : Outline α) (q : OperatorId) : Prop :=
  O.Unlinked (fun _ producer reader => Mergeable producer.kind reader.kind) q

variable {g : Graph α} {rank : OperatorId → Nat} {o : OperatorId} {op : Operator α}

omit [Scalar α] in
/-- An operator with a new operand and kind takes the place of itself and its producer. -/
theorem mergeInto_yields (h : g.Linked) (ho : g.operatorAt? o = some op) {p : OperatorId}
    {inner : Operator α} (hp : g.operatorAt? p = some inner) (ne : p ≠ o) {x : VariableId}
    (live : g.outline.Live x) (kind : OperatorKind α) (report : PassReport) :
    Yields (do
      Edit.setInputs o [x]
      Edit.setKind o kind
      discard (Edit.removeOperator p)
      return report) g report
      ((g.outline.setOperator p none).setOperator o (some { op with inputs := [x], kind })) := by
  refine (setInputs_yields h ho fun u hu => ?_).bind fun g₁ h₁ e₁ => ?_
  · rw [List.mem_singleton.1 hu]
    exact live
  have ho₁ : g₁.operatorAt? o = some { op with inputs := [x] } := by
    rw [← outline_operators, e₁]; simp
  refine (setKind_yields h₁ ho₁ kind).bind fun g₂ h₂ e₂ => ?_
  have hp₂ : g₂.operatorAt? p = some inner := by
    rw [← outline_operators, e₂, e₁]; simp [ne, hp]
  refine (removeOperator_yields h₂ hp₂).discard.bind fun g₃ h₃ e₃ => ⟨g₃, rfl, h₃, ?_⟩
  rw [e₃, e₂, e₁, Outline.setOperator_setOperator, Outline.setOperator_comm _ ne.symm]

theorem mergeAffine_change (h : g.Linked) (sound : g.outline.Sound rank)
    (ho : g.operatorAt? o = some op) {scale bias : α} (kind : op.kind = .scalarAffine scale bias)
    {v : VariableId} {p : OperatorId} {inner : Operator α} (link : g.outline.Link v p o)
    (hp : g.operatorAt? p = some inner) {innerScale innerBias : α}
    (innerKind : inner.kind = .scalarAffine innerScale innerBias) (report : PassReport) :
    ∃ O', Yields (mergeAffine op scale bias report) g (report.record 1) O' ∧
      MergeChange rank g.outline o O' := by
  obtain ⟨_, w, inputs, outputs, shape⟩ := sound.unary .ok ho fun _ => by rw [kind]; rfl
  obtain ⟨x, _, innerInputs, innerOutputs, innerShape⟩ :=
    sound.unary .ok hp fun _ => by rw [innerKind]; rfl
  cases link.eq_input ho inputs
  cases link.eq_output hp innerOutputs
  have ne := link.ne sound
  have live : g.outline.Live x := h.input_live ⟨inner, hp, by rw [innerInputs]; simp⟩
  let merged : Operator α :=
    { op with inputs := [x], kind := composeAffine innerScale innerBias scale bias }
  refine ⟨(g.outline.setOperator p none).setOperator o (some merged), ?_, [p], op, merged, w, ho,
    ?_, ?_, ?_, ?_, ?_, ?_⟩
  · have found : op.input?.bind (g.fusibleProducer? · op.id) = some p := by
      rw [Operator.input?, inputs, h.operator_id ho]
      exact (fusibleProducer?_iff h).2 link
    obtain ⟨g', run, rest⟩ := mergeInto_yields h ho hp ne live
      (composeAffine innerScale innerBias scale bias) (report.record 1)
    refine ⟨g', ?_, rest⟩
    obtain ⟨_, _, _, _⟩ := inner
    cases innerKind
    cases innerInputs
    rw [mergeAffine, run_bind_ok (run_get g), found, h.operator_id ho]
    simp only [hp]
    exact run
  · refine collapse_link sound link hp ho (.inl ⟨rfl, rfl⟩)
      ((extends_refl sound.positive).splice_two ho hp ne.symm) outputs outputs ?_ (fun u hu => ?_)
      (fun u hu _ => ?_) (fun u hu => ?_) fun u _ _ count => ?_
    · show unaryShape [g.outline.shape x] .ok = .ok (g.outline.shape w)
      exact innerShape.trans shape
    · exact .inr (innerInputs ▸ hu)
    · rw [innerInputs] at hu
      exact hu
    · rw [inputs] at hu
      exact .inl (List.mem_singleton.1 hu)
    · rw [innerInputs]
      exact count
  · intro k hk
    rw [kind]
    exact mergeable_affine_iff.2 (mergeable_affine_iff.1 hk)
  · exact fun eps => (nomatch ·)
  · exact .affine p inner v x scale bias innerScale innerBias List.mem_cons_self hp innerKind
      innerInputs innerOutputs kind inputs rfl rfl
  · intro c hc
    rw [List.mem_singleton.1 hc]
    refine ⟨link.lt sound, fun inner' hp' k hk => ?_⟩
    cases hp.symm.trans hp'
    rw [innerKind]
    exact mergeable_affine_iff.2 (mergeable_affine_iff.1 hk)
  · intro u c inner' link' hc _
    cases link'.eq_input ho inputs
    exact List.mem_singleton.2 (h.writer_unique link'.writes link.writes)

/-- The operands that take the place of one operand of a sum. -/
def operandBlock (g : Graph α) (o : OperatorId) (v : VariableId) : List VariableId :=
  match nestedSum? g o v with
  | some n => n.inputs
  | none => [v]

/-- The operands of a sum with those of its nested sums in their places. -/
def flattenedOperands (g : Graph α) (op : Operator α) : List VariableId :=
  op.inputs.flatMap (operandBlock g op.id)

/-- Ids of the sums nested in a sum. -/
def nestedIds (g : Graph α) (op : Operator α) : List OperatorId :=
  (op.inputs.filterMap (nestedSum? g op.id)).map (·.id)

omit [Scalar α] in
/-- Operands that no nested sum writes stay where they are. -/
theorem flatten_append {us : List VariableId} (plain : ∀ u ∈ us, nestedSum? g o u = none)
    (looks : Nat) (rest : List VariableId) :
    flatten g o (us.length + looks) (us ++ rest) =
      { flatten g o looks rest with operands := us ++ (flatten g o looks rest).operands } := by
  induction us with
  | nil => rw [List.length_nil, Nat.zero_add]; rfl
  | cons u us ih =>
    rw [List.length_cons, Nat.add_right_comm, List.cons_append, flatten,
      plain u List.mem_cons_self]
    simp only [ih fun w hw => plain w (List.mem_cons_of_mem u hw)]
    rfl

omit [Scalar α] in
/-- Where no operand of a nested sum is nested itself, each sum takes the place of one operand, and
the loop ends with the last operand, no matter how many more it may look at. -/
theorem flatten_eq (plain : ∀ {v n}, nestedSum? g o v = some n →
      ∀ u ∈ n.inputs, nestedSum? g o u = none) (vs : List VariableId) {looks : Nat}
    (enough : operandLooks g o vs ≤ looks) :
    flatten g o looks vs = ⟨vs.flatMap (operandBlock g o), vs.filterMap (nestedSum? g o)⟩ := by
  induction vs generalizing looks with
  | nil => cases looks <;> rfl
  | cons v vs ih =>
    cases found : nestedSum? g o v with
    | none =>
      simp only [operandLooks, found] at enough
      obtain ⟨more, rfl⟩ : ∃ more, looks = more + 1 := ⟨looks - 1, by omega⟩
      rw [flatten, found]
      simp only [ih (show _ ≤ more by omega)]
      rw [List.flatMap_cons, List.filterMap_cons_none found, operandBlock, found]
      rfl
    | some n =>
      simp only [operandLooks, found] at enough
      obtain ⟨more, rfl⟩ : ∃ more, looks = n.inputs.length + more + 1 :=
        ⟨looks - n.inputs.length - 1, by omega⟩
      rw [flatten, found]
      simp only [flatten_append (plain found), ih (show _ ≤ more by omega)]
      rw [List.flatMap_cons, List.filterMap_cons_some found, operandBlock, found]
      rfl

omit [Scalar α] in
/-- In dependency order, what a nested sum reads is not nested itself, for then the outer sum alone
would read it. -/
theorem nested_plain (h : g.Linked) (ranked : g.outline.Ranked rank) {v : VariableId}
    {n : Operator α} (found : nestedSum? g o v = some n) :
    ∀ u ∈ n.inputs, nestedSum? g o u = none := by
  intro u hu
  obtain ⟨link, hn, _⟩ := (nestedSum?_iff h).1 found
  have earlier : rank n.id < rank o := ranked n.id o ⟨v, link.writes, link.once.reads⟩
  cases found' : nestedSum? g o u with
  | none => rfl
  | some n' =>
    have only := ((nestedSum?_iff h).1 found').1.once.2 n.id ⟨n, hn, hu⟩
    exact absurd (only ▸ earlier) (Nat.lt_irrefl _)

omit [Scalar α] in
/-- Writing a sum out ends with every nested sum in its place, in all graphs that have an order. -/
theorem flattenSum_eq (h : g.Linked) (ranked : g.outline.Ranked rank)
    (ho : g.operatorAt? o = some op) :
    flattenSum g op = ⟨flattenedOperands g op, op.inputs.filterMap (nestedSum? g o)⟩ := by
  have id : op.id = o := h.operator_id ho
  rw [flattenSum, flattenedOperands, id]
  exact flatten_eq (nested_plain h ranked) op.inputs (Nat.le_refl _)

omit [Scalar α] in
theorem mem_nestedIds (h : g.Linked) (ho : g.operatorAt? o = some op) {c : OperatorId} :
    c ∈ nestedIds g op ↔ ∃ u n, nestedSum? g o u = some n ∧ n.id = c := by
  have id : op.id = o := h.operator_id ho
  rw [nestedIds, id, List.mem_map]
  constructor
  · rintro ⟨n, hn, rfl⟩
    obtain ⟨u, _, found⟩ := List.mem_filterMap.1 hn
    exact ⟨u, n, found, rfl⟩
  · rintro ⟨u, n, found, rfl⟩
    have link := ((nestedSum?_iff h).1 found).1
    exact ⟨n, List.mem_filterMap.2 ⟨u, (Outline.reads_iff ho).1 link.once.reads, found⟩, rfl⟩

omit [Scalar α] in
/-- What the operands of a flattened sum are. -/
theorem mem_flattened (h : g.Linked) (ho : g.operatorAt? o = some op) {v : VariableId} :
    v ∈ flattenedOperands g op ↔ (v ∈ op.inputs ∧ nestedSum? g o v = none) ∨
      ∃ u n, u ∈ op.inputs ∧ nestedSum? g o u = some n ∧ v ∈ n.inputs := by
  have id : op.id = o := h.operator_id ho
  rw [flattenedOperands, id, List.mem_flatMap]
  constructor
  · rintro ⟨u, hu, hv⟩
    unfold operandBlock at hv
    split at hv
    · next n found => exact .inr ⟨u, n, hu, found, hv⟩
    · next missing =>
      cases List.mem_singleton.1 hv
      exact .inl ⟨hu, missing⟩
  · rintro (⟨hv, missing⟩ | ⟨u, n, hu, found, hv⟩)
    · exact ⟨v, hv, by simp [operandBlock, missing]⟩
    · exact ⟨u, hu, by simpa [operandBlock, found] using hv⟩

/-- `n` is a sum without activation, nested at the operand `u` of the sum `o`. It comes before
that sum, and writes that operand and no other variable. -/
structure Nested (g : Graph α) (rank : OperatorId → Nat) (o : OperatorId) (u : VariableId)
    (n : Operator α) : Prop where
  link : g.outline.Link u n.id o
  live : g.operatorAt? n.id = some n
  kind : n.kind = .elementwiseAdd none
  outputs : n.outputs = [u]
  length : 2 ≤ n.inputs.length
  shapes : ∀ v ∈ n.inputs, g.outline.shape v = g.outline.shape u
  lt : rank n.id < rank o

section

variable (h : g.Linked) (sound : g.outline.Sound rank) (ho : g.operatorAt? o = some op)
include h sound

theorem nestedSum?_spec {u : VariableId} {n : Operator α} (found : nestedSum? g o u = some n) :
    Nested g rank o u n := by
  obtain ⟨link, hn, kind⟩ := (nestedSum?_iff h).1 found
  obtain ⟨w, outputs, length, shapes⟩ := sound.elementwiseAdd hn kind
  cases link.eq_output hn outputs
  exact ⟨link, hn, kind, outputs, length, shapes, link.lt sound⟩

theorem nested_inj {u u' : VariableId} {n n' : Operator α} (found : nestedSum? g o u = some n)
    (found' : nestedSum? g o u' = some n') (e : n.id = n'.id) : u = u' := by
  have nested := nestedSum?_spec h sound found
  have nested' := nestedSum?_spec h sound found'
  have same : some n = some n' := by rw [← nested.live, ← nested'.live, e]
  cases same
  exact (List.cons.inj (nested.outputs.symm.trans nested'.outputs)).1

include ho

theorem exists_nested {c : OperatorId} (hc : c ∈ nestedIds g op) :
    ∃ u n, nestedSum? g o u = some n ∧ n.id = c ∧ Nested g rank o u n := by
  obtain ⟨u, n, found, e⟩ := (mem_nestedIds h ho).1 hc
  exact ⟨u, n, found, e, nestedSum?_spec h sound found⟩

theorem nestedIds_lt {c : OperatorId} (hc : c ∈ nestedIds g op) : rank c < rank o := by
  obtain ⟨_, _, _, rfl, nested⟩ := exists_nested h sound ho hc
  exact nested.lt

theorem nestedIds_nodup : (nestedIds g op).Nodup := by
  have id : op.id = o := h.operator_id ho
  have single {u n} (found : nestedSum? g o u = some n) : op.inputs.count u = 1 := by
    obtain ⟨⟨op', ho', count⟩, _⟩ := ((nestedSum?_iff h).1 found).1.once
    cases ho.symm.trans ho'
    exact count
  have nodup (vs : List VariableId)
      (once : ∀ u n, nestedSum? g o u = some n → vs.count u ≤ 1) :
      ((vs.filterMap (nestedSum? g o)).map (·.id)).Nodup := by
    induction vs with
    | nil => exact List.nodup_nil
    | cons v vs ih =>
      have rest := ih fun u n found => by
        have := once u n found
        rw [List.count_cons] at this
        omega
      cases found : nestedSum? g o v with
      | none => rwa [List.filterMap_cons_none found]
      | some n =>
        rw [List.filterMap_cons_some found, List.map_cons]
        refine List.nodup_cons.2 ⟨fun hm => ?_, rest⟩
        obtain ⟨n', hn', e⟩ := List.mem_map.1 hm
        obtain ⟨u, hu, found'⟩ := List.mem_filterMap.1 hn'
        obtain rfl := nested_inj h sound found' found e
        have := once u n found
        rw [List.count_cons_self] at this
        have := List.count_pos_iff.2 hu
        omega
  rw [nestedIds, id]
  exact nodup op.inputs fun u n found => Nat.le_of_eq (single found)

/-- An operand of a flattened sum comes from outside. -/
theorem flattened_outside {v : VariableId} (hv : v ∈ flattenedOperands g op) :
    (∃ c ∈ o :: nestedIds g op, rank c ≤ rank o ∧ g.outline.Reads c v) ∧
      ∀ p ∈ o :: nestedIds g op, ¬g.outline.Writes p v := by
  have nestedWrites {p} (hp : p ∈ nestedIds g op) (written : g.outline.Writes p v) :
      ∃ n, nestedSum? g o v = some n ∧ n.id = p := by
    obtain ⟨u, n, found, rfl, nested⟩ := exists_nested h sound ho hp
    have := (Outline.writes_iff nested.live).1 written
    rw [nested.outputs] at this
    obtain rfl := List.mem_singleton.1 this
    exact ⟨n, found, rfl⟩
  rcases (mem_flattened h ho).1 hv with ⟨hv, missing⟩ | ⟨u, n, hu, found, hv⟩
  · refine ⟨⟨o, List.mem_cons_self, Nat.le_refl _, op, ho, hv⟩, fun p hp written => ?_⟩
    rcases List.mem_cons.1 hp with rfl | hp
    · exact sound.not_reads written (Nat.le_refl _) ⟨op, ho, hv⟩
    · obtain ⟨n, found, _⟩ := nestedWrites hp written
      rw [missing] at found
      cases found
  · have nested := nestedSum?_spec h sound found
    have read : g.outline.Reads n.id v := ⟨n, nested.live, hv⟩
    refine ⟨⟨n.id, List.mem_cons_of_mem o ((mem_nestedIds h ho).2 ⟨u, n, found, rfl⟩),
      Nat.le_of_lt nested.lt, read⟩, fun p hp written => ?_⟩
    rcases List.mem_cons.1 hp with rfl | hp
    · exact sound.not_reads written (Nat.le_of_lt nested.lt) read
    · obtain ⟨n', found', _⟩ := nestedWrites hp written
      have e := (nestedSum?_spec h sound found').link.once.2 n.id read
      exact Nat.lt_irrefl _ (e ▸ nested.lt)

/-- A value that the sum and the nested sums read twice is an operand twice. -/
theorem flattened_once {v : VariableId} (count : (flattenedOperands g op).count v = 1) :
    ∃ c ∈ o :: nestedIds g op, (∃ op, g.operatorAt? c = some op ∧ op.inputs.count v = 1) ∧
      ∀ c' ∈ o :: nestedIds g op, g.outline.Reads c' v → c' = c := by
  have id : op.id = o := h.operator_id ho
  have mem : v ∈ flattenedOperands g op := List.count_pos_iff.1 (count ▸ Nat.one_pos)
  have outside := (flattened_outside h sound ho mem).2
  have sum : (op.inputs.map fun u => (operandBlock g o u).count v).sum = 1 := by
    rw [← count, flattenedOperands, id, List.count_flatMap]
    rfl
  have blockOf {c} (hc : c ∈ o :: nestedIds g op) (read : g.outline.Reads c v) :
      ∃ u ∈ op.inputs, 0 < (operandBlock g o u).count v ∧
        (c = o ∧ nestedSum? g o u = none ∨ ∃ n, nestedSum? g o u = some n ∧ n.id = c) := by
    rcases List.mem_cons.1 hc with rfl | hc
    · have hv := (Outline.reads_iff ho).1 read
      refine ⟨v, hv, ?_⟩
      cases found : nestedSum? g c v with
      | none => exact ⟨by simp [operandBlock, found], .inl ⟨rfl, rfl⟩⟩
      | some n =>
        exact absurd (nestedSum?_spec h sound found).link.writes (outside n.id
          (List.mem_cons_of_mem c ((mem_nestedIds h ho).2 ⟨v, n, found, rfl⟩)))
    · obtain ⟨u, n, found, rfl, nested⟩ := exists_nested h sound ho hc
      refine ⟨u, (Outline.reads_iff ho).1 nested.link.once.reads, ?_, .inr ⟨n, found, rfl⟩⟩
      rw [operandBlock, found]
      exact List.count_pos_iff.2 ((Outline.reads_iff nested.live).1 read)
  obtain ⟨u, hu, positive⟩ : ∃ u ∈ op.inputs, 0 < (operandBlock g o u).count v := by
    rw [flattenedOperands, id, List.mem_flatMap] at mem
    obtain ⟨u, hu, hv⟩ := mem
    exact ⟨u, hu, List.count_pos_iff.2 hv⟩
  obtain ⟨one, single, alone⟩ := term_of_sum_one sum hu positive
  cases found : nestedSum? g o u with
  | none =>
    have e : v = u := by
      rw [operandBlock, found] at positive
      exact List.mem_singleton.1 (List.count_pos_iff.1 positive)
    refine ⟨o, List.mem_cons_self, ⟨op, ho, e ▸ single⟩, fun c hc read => ?_⟩
    obtain ⟨u', hu', positive', ⟨rfl, _⟩ | ⟨n, found', _⟩⟩ := blockOf hc read
    · rfl
    · rw [alone u' hu' positive', found] at found'
      cases found'
  | some n =>
    have hn := (nestedSum?_spec h sound found).live
    rw [operandBlock, found] at one
    refine ⟨n.id, List.mem_cons_of_mem o ((mem_nestedIds h ho).2 ⟨u, n, found, rfl⟩),
      ⟨n, hn, one⟩, fun c hc read => ?_⟩
    obtain ⟨u', hu', positive', ⟨rfl, missing⟩ | ⟨n', found', rfl⟩⟩ := blockOf hc read
    · rw [alone u' hu' positive', found] at missing
      cases missing
    · rw [alone u' hu' positive', found] at found'
      cases found'
      rfl

/-- A flattened sum has no fewer operands than the sum. -/
theorem length_le_flattened : op.inputs.length ≤ (flattenedOperands g op).length := by
  rw [flattenedOperands, h.operator_id ho]
  induction op.inputs with
  | nil => exact Nat.zero_le _
  | cons v vs ih =>
    have block : 1 ≤ (operandBlock g o v).length := by
      cases found : nestedSum? g o v with
      | none => simp [operandBlock, found]
      | some n =>
        have := (nestedSum?_spec h sound found).length
        simp only [operandBlock, found]
        omega
    rw [List.flatMap_cons, List.length_append, List.length_cons]
    omega

/-- Operands of a flattened sum have the shape of its result. -/
theorem flattened_shape {fused : Option (Activation α)} (kind : op.kind = .elementwiseAdd fused)
    {w : VariableId} (outputs : op.outputs = [w]) :
    (OperatorKind.elementwiseAdd fused).outputShape
      ((flattenedOperands g op).map g.outline.shape) = .ok (g.outline.shape w) := by
  obtain ⟨_, hw, length, shapes⟩ := sound.elementwiseAdd ho kind
  cases outputs.symm.trans hw
  refine elementwiseAddShape_ok_iff.2 ⟨?_, fun t ht => ?_⟩
  · rw [List.length_map]
    exact Nat.le_trans length (length_le_flattened h sound ho)
  · obtain ⟨v, hv, rfl⟩ := List.mem_map.1 ht
    rcases (mem_flattened h ho).1 hv with ⟨hv, _⟩ | ⟨u, n, hu, found, hv⟩
    · exact shapes v hv
    · exact ((nestedSum?_spec h sound found).shapes v hv).trans (shapes u hu)

/-- What the sum and the nested sums read from outside is an operand of the flattened sum. -/
theorem flattened_kept {c : OperatorId} (hc : c ∈ o :: nestedIds g op) {v : VariableId}
    (read : g.outline.Reads c v) (unwritten : ∀ p ∈ o :: nestedIds g op, ¬g.outline.Writes p v) :
    v ∈ flattenedOperands g op := by
  rcases List.mem_cons.1 hc with rfl | hc
  · refine (mem_flattened h ho).2 (.inl ⟨(Outline.reads_iff ho).1 read, ?_⟩)
    cases found : nestedSum? g c v with
    | none => rfl
    | some n =>
      have hn : n.id ∈ nestedIds g op := (mem_nestedIds h ho).2 ⟨v, n, found, rfl⟩
      exact absurd (nestedSum?_spec h sound found).link.writes
        (unwritten n.id (List.mem_cons_of_mem c hn))
  · obtain ⟨u, n, found, rfl, nested⟩ := exists_nested h sound ho hc
    exact (mem_flattened h ho).2 (.inr ⟨u, n, (Outline.reads_iff ho).1 nested.link.once.reads,
      found, (Outline.reads_iff nested.live).1 read⟩)

theorem mergeSum_collapse {fused : Option (Activation α)}
    (kind : op.kind = .elementwiseAdd fused) {w : VariableId} (outputs : op.outputs = [w]) :
    Collapse rank g.outline ((g.outline.setOperator o
        (some { op with inputs := flattenedOperands g op })).without (nestedIds g op))
      o o (nestedIds g op) { op with inputs := flattenedOperands g op } w := by
  have fresh : o ∉ nestedIds g op := fun hm => Nat.lt_irrefl _ (nestedIds_lt h sound ho hm)
  refine
    { inputs := rfl
      outputs := rfl
      tensors := fun _ => rfl
      fresh := fun {v} _ => sound.positive v
      group_live := fun c hc => ?_
      operators_host := by simp [Outline.without, fresh]
      operators_gone := fun p hp => by simp [Outline.without, hp]
      operators_other := fun p hp => ?_
      outputs_eq := outputs
      last_mem := List.mem_cons_self
      last_writes := ⟨op, ho, outputs ▸ List.mem_singleton.2 rfl⟩
      typed := kind ▸ flattened_shape h sound ho kind outputs
      host_le := Nat.le_refl _
      group_le := fun c hc => ?_
      operands := fun v hv => .inr (flattened_outside h sound ho hv)
      kept := fun c hc v read _ unwritten => flattened_kept h sound ho hc read unwritten
      once := fun v count _ _ _ => flattened_once h sound ho count
      inner := fun c hc v written ne => ?_ }
  · rcases List.mem_cons.1 hc with rfl | hc
    · exact ⟨op, ho⟩
    · obtain ⟨_, n, _, rfl, nested⟩ := exists_nested h sound ho hc
      exact ⟨n, nested.live⟩
  · rw [List.mem_cons, not_or] at hp
    simp [Outline.without, hp]
  · rcases List.mem_cons.1 hc with rfl | hc
    · exact Nat.le_refl _
    · exact Nat.le_of_lt (nestedIds_lt h sound ho hc)
  · rcases List.mem_cons.1 hc with rfl | hc
    · have hv := (Outline.writes_iff ho).1 written
      rw [outputs] at hv
      exact absurd (List.mem_singleton.1 hv) ne
    · obtain ⟨u, n, _, rfl, nested⟩ := exists_nested h sound ho hc
      have hv := (Outline.writes_iff nested.live).1 written
      rw [nested.outputs] at hv
      obtain rfl := List.mem_singleton.1 hv
      exact ⟨nested.link.inner, fun q read => nested.link.once.2 q read ▸ List.mem_cons_self⟩

/-- Setting the operands of a sum and removing the nested ones. -/
theorem flatten_yields (report : PassReport) : Yields (do
      Edit.setInputs o (flattenedOperands g op)
      (op.inputs.filterMap (nestedSum? g o)).forM fun n => discard (Edit.removeOperator n.id)
      return report) g report
    ((g.outline.setOperator o (some { op with inputs := flattenedOperands g op })).without
      (nestedIds g op)) := by
  have ids : (op.inputs.filterMap (nestedSum? g o)).map (·.id) = nestedIds g op := by
    rw [nestedIds, h.operator_id ho]
  refine (setInputs_yields h ho fun v hv => ?_).bind fun g₁ h₁ e₁ => ?_
  · obtain ⟨⟨c, _, _, read⟩, _⟩ := flattened_outside h sound ho hv
    exact h.input_live read
  have live : ∀ p ∈ nestedIds g op, ∃ n, g₁.operatorAt? p = some n := fun p hp => by
    obtain ⟨n, hn, rfl⟩ := List.mem_map.1 (ids ▸ hp)
    obtain ⟨u, _, found⟩ := List.mem_filterMap.1 hn
    have nested := nestedSum?_spec h sound found
    refine ⟨n, ?_⟩
    rw [← outline_operators, e₁, Outline.setOperator_operators, if_neg (nested.link.ne sound)]
    exact nested.live
  obtain ⟨g₂, run, h₂, e₂⟩ := removeAll_yields h₁ (nestedIds_nodup h sound ho) live
  have each : (nestedIds g op).forM (fun p => discard (Edit.removeOperator p)) =
      ((op.inputs.filterMap (nestedSum? g o)).forM fun n => discard (Edit.removeOperator n.id) :
        Edit α Unit) := by
    rw [← ids]
    exact List.forM_map ..
  exact ⟨g₂, run_bind_ok (each ▸ run), h₂, by rw [e₂, e₁]⟩

theorem mergeSum_change {fused : Option (Activation α)} (kind : op.kind = .elementwiseAdd fused)
    (report : PassReport) (some_nested : op.inputs.filterMap (nestedSum? g o) ≠ []) :
    ∃ report' O', report'.changed = true ∧ Yields (mergeSum op report) g report' O' ∧
      MergeChange rank g.outline o O' := by
  have id : op.id = o := h.operator_id ho
  obtain ⟨w, outputs, _⟩ := sound.result ho
  let report' := report.record (op.inputs.filterMap (nestedSum? g o)).length
  refine ⟨report', _, rfl, ?_, nestedIds g op, op, { op with inputs := flattenedOperands g op }, w,
    ho, mergeSum_collapse h sound ho kind outputs, fun k hk => hk, fun eps e => ?_,
    .sum fused (operandBlock g o) kind kind ?_ fun v hv => ?_,
    fun c hc => ⟨nestedIds_lt h sound ho hc, fun inner hinner k hk => ?_⟩,
    fun v p inner link hp mergeable => ?_⟩
  · obtain ⟨g', run, rest⟩ := flatten_yields h sound ho report'
    refine ⟨g', ?_, rest⟩
    rw [mergeSum, run_bind_ok (run_get g)]
    simp only [flattenSum_eq h sound.ranked ho, id, List.isEmpty_eq_false_iff.2 some_nested]
    exact run
  · cases kind.symm.trans (show op.kind = .batchNormalization eps from e)
  · show flattenedOperands g op = _
    rw [flattenedOperands, id]
  · cases found : nestedSum? g o v with
    | none => exact .inl (by rw [operandBlock, found])
    | some n =>
      have nested := nestedSum?_spec h sound found
      exact .inr ⟨n.id, (mem_nestedIds h ho).2 ⟨v, n, found, rfl⟩, n, nested.live, nested.kind,
        by rw [operandBlock, found], nested.outputs⟩
  · obtain ⟨_, n, _, rfl, nested⟩ := exists_nested h sound ho hc
    cases nested.live.symm.trans hinner
    have hk : Mergeable k op.kind := hk
    rw [kind] at hk
    rw [nested.kind]
    exact mergeable_sum_iff.2 (mergeable_sum_iff.1 hk)
  · rw [kind] at mergeable
    have innerId : inner.id = p := h.operator_id hp
    have found : nestedSum? g o v = some inner :=
      (nestedSum?_iff h).2 ⟨innerId ▸ link, innerId ▸ hp, mergeable_sum_iff.1 mergeable⟩
    exact (mem_nestedIds h ho).2 ⟨v, inner, found, innerId⟩

end

theorem mergeStep_idle (h : g.Linked) (ho : g.operatorAt? o = some op)
    (quiet : MergeQuiet g.outline o) (report : PassReport) :
    mergeStep op report g = .ok report g := by
  have id : op.id = o := h.operator_id ho
  cases kind : op.kind with
  | scalarAffine scale bias =>
    simp only [mergeStep, kind]
    rw [mergeAffine, run_bind_ok (run_get g)]
    cases found : op.input?.bind (g.fusibleProducer? · op.id) with
    | none => rfl
    | some p =>
      obtain ⟨v, hv, fusible⟩ := Option.bind_eq_some_iff.1 found
      rw [id] at fusible
      have link := (fusibleProducer?_iff h).1 fusible
      obtain ⟨inner, hp, _⟩ := link.writes
      have hp : g.operatorAt? p = some inner := hp
      simp only [hp]
      obtain ⟨_, innerKind, _, _⟩ := inner
      cases innerKind with
      | scalarAffine _ _ =>
        refine absurd ?_ (quiet v p _ op link hp ho)
        show Mergeable _ op.kind
        rw [kind]
        exact mergeable_affine_iff.2 ⟨_, _, rfl⟩
      | _ => rfl
  | elementwiseAdd fused =>
    have unnested (v : VariableId) : nestedSum? g op.id v = none := by
      cases found : nestedSum? g op.id v with
      | none => rfl
      | some n =>
        rw [id] at found
        obtain ⟨link, hn, innerKind⟩ := (nestedSum?_iff h).1 found
        refine absurd ?_ (quiet v n.id n op link hn ho)
        show Mergeable n.kind op.kind
        rw [kind]
        exact mergeable_sum_iff.2 innerKind
    have none_nested : (flattenSum g op).nested = [] := by
      rw [flattenSum, flatten_eq (fun _ u _ => unnested u) op.inputs (Nat.le_refl _)]
      exact List.filterMap_eq_nil_iff.2 fun v _ => unnested v
    simp only [mergeStep, kind]
    rw [mergeSum, run_bind_ok (run_get g)]
    simp only [none_nested]
    rfl
  | _ => simp only [mergeStep, kind]; rfl

theorem mergeStep_outcome (h : g.Linked) (sound : g.outline.Sound rank)
    (ho : g.operatorAt? o = some op) (report : PassReport) :
    MergeQuiet g.outline o ∨ ∃ report' O', report'.changed = true ∧
      Yields (mergeStep op report) g report' O' ∧ MergeChange rank g.outline o O' := by
  by_cases quiet : MergeQuiet g.outline o
  · exact .inl quiet
  refine .inr ?_
  simp only [Outline.Unlinked, not_forall, not_not] at quiet
  obtain ⟨v, p, inner, op', link, hp, ho', mergeable⟩ := quiet
  cases ho.symm.trans ho'
  unfold mergeStep
  split
  · next scale bias kind =>
    rw [kind] at mergeable
    obtain ⟨_, _, innerKind⟩ := mergeable_affine_iff.1 mergeable
    obtain ⟨O', yields, change⟩ := mergeAffine_change h sound ho kind link hp innerKind report
    exact ⟨_, O', rfl, yields, change⟩
  · next fused kind =>
    refine mergeSum_change h sound ho kind report fun none_nested => ?_
    rw [kind] at mergeable
    have innerId : inner.id = p := h.operator_id hp
    have found : nestedSum? g o v = some inner :=
      (nestedSum?_iff h).2 ⟨innerId ▸ link, innerId ▸ hp, mergeable_sum_iff.1 mergeable⟩
    have := List.filterMap_eq_nil_iff.1 none_nested v ((Outline.reads_iff ho).1 link.once.reads)
    rw [found] at this
    cases this
  · next other₁ other₂ =>
    cases kind : op.kind <;> rw [kind] at mergeable <;>
      cases innerKind : inner.kind <;> rw [innerKind] at mergeable <;> cases mergeable
    · exact absurd kind (other₂ _)
    · exact absurd kind (other₁ _ _)

theorem MergeChange.settles (h : g.Linked) (sound : g.outline.Sound rank) {O' : Outline α}
    (change : MergeChange rank g.outline o O')
    (before : ∀ q, rank q < rank o → MergeQuiet g.outline q) (q : OperatorId)
    (hq : rank q < rank o ∨ q = o) : MergeQuiet O' q := by
  obtain ⟨gone, op, merged, w, ho, collapse, reader, _, _, inner, all⟩ := change
  by_cases e : q = o
  · subst e
    refine collapse.unlinked_host h sound fun v p c producer reader' hc _ hp link hp' hc' bad => ?_
    rcases List.mem_cons.1 hc with rfl | hc
    · exact hp (List.mem_cons_of_mem c (all v p producer link hp' (reader _ bad)))
    · obtain ⟨lt, kinds⟩ := inner c hc
      exact before c lt v p producer reader' link hp' hc' (kinds reader' hc' _ bad)
  · have lt := hq.resolve_right e
    by_cases hg : q ∈ gone
    · exact Outline.unlinked_dead (collapse.operators_gone q hg)
    · have other : q ∉ o :: gone := fun hm => (List.mem_cons.1 hm).elim e hg
      refine collapse.unlinked_other h sound other (fun _ _ _ _ _ bad => bad)
        (fun _ _ read _ _ _ => ?_) (before q lt)
      exact absurd read (sound.not_reads collapse.last_writes (Nat.le_of_lt lt))

theorem mergeStep_rule : StepRule (α := α) mergeStep MergeQuiet MergeChange where
  dead := Outline.unlinked_dead
  pruned quiet := quiet.pruned fun _ _ bad => bad
  idle report h _ ho quiet := mergeStep_idle h ho quiet report
  outcome report h sound ho := mergeStep_outcome h sound ho report
  sound h sound change := by
    obtain ⟨_, _, _, _, _, collapse, _⟩ := change
    exact collapse.sound h sound
  keeps h sound change := by
    obtain ⟨_, _, _, _, _, collapse, _⟩ := change
    exact collapse.keeps h
  settles h sound change := change.settles h sound

end TensorGraph
