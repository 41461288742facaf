import TensorGraph.Pass.Basic
import TensorGraph.Proofs.Graph.Sound

/-!
# TensorGraph.Proofs.Pass.Collapse

Several operators that become one.

* `Outline.Link`: a value that one operator writes for one other alone, which reads it once.
* `Collapse`: operators that go, and one that takes their place, reads what they read from outside
  and writes what the last of them wrote. Every change that a pass makes is one of these, or makes
  a result a constant.
* `collapse_self`, `collapse_link`: collapses of one operator, and of two that a link joins.
* `Collapse.sound`: a collapse keeps an outline sound, for the same ranks.
* `Collapse.link`: a link after a collapse was one before, up to the operators that became one.
-/

namespace TensorGraph

variable {α : Type}

namespace Outline

/-- `o` alone reads `v`, and once. -/
def Once (O : Outline α) (v : VariableId) (o : OperatorId) : Prop :=
  (∃ op, O.operators o = some op ∧ op.inputs.count v = 1) ∧ ∀ c, O.Reads c v → c = o

/-- `p` writes `v` for `q` alone, which reads it once. -/
structure Link (O : Outline α) (v : VariableId) (p q : OperatorId) : Prop where
  writes : O.Writes p v
  once : O.Once v q
  inner : v ∉ O.outputs

theorem Once.reads {O : Outline α} {v : VariableId} {o : OperatorId} (h : O.Once v o) :
    O.Reads o v := by
  obtain ⟨⟨op, ho, count⟩, _⟩ := h
  exact ⟨op, ho, List.count_pos_iff.1 (by omega)⟩

section

variable {O : Outline α} {rank : OperatorId → Nat} {p q : OperatorId} {v u : VariableId}
  {op : Operator α}

theorem Link.lt [Scalar α] (h : O.Link v p q) (sound : O.Sound rank) : rank p < rank q :=
  sound.ranked p q ⟨v, h.writes, h.once.reads⟩

theorem Link.ne [Scalar α] (h : O.Link v p q) (sound : O.Sound rank) : p ≠ q :=
  fun e => Nat.lt_irrefl _ (e ▸ h.lt sound)

theorem Link.eq_input (h : O.Link v p q) (hq : O.operators q = some op) (inputs : op.inputs = [u]) :
    v = u := by
  have read := (reads_iff hq).1 h.once.reads
  rw [inputs] at read
  exact List.mem_singleton.1 read

theorem Link.eq_output (h : O.Link v p q) (hp : O.operators p = some op)
    (outputs : op.outputs = [u]) : v = u := by
  have written := (writes_iff hp).1 h.writes
  rw [outputs] at written
  exact List.mem_singleton.1 written

end

/-- A rule about two operators that a link joins is not broken at the reader `q`. -/
def Unlinked (P : Outline α → Operator α → Operator α → Prop) (O : Outline α) (q : OperatorId) :
    Prop :=
  ∀ v p producer reader, O.Link v p q → O.operators p = some producer →
    O.operators q = some reader → ¬P O producer reader

theorem Unlinked.pruned {P : Outline α → Operator α → Operator α → Prop} {O : Outline α}
    {q : OperatorId} (quiet : O.Unlinked P q)
    (same : ∀ producer reader, P O.pruned producer reader → P O producer reader) :
    O.pruned.Unlinked P q :=
  fun v p producer reader link hp hq broken =>
    quiet v p producer reader ⟨link.writes, link.once, link.inner⟩ hp hq
      (same producer reader broken)

theorem unlinked_dead {P : Outline α → Operator α → Operator α → Prop} {O : Outline α}
    {q : OperatorId} (hq : O.operators q = none) : O.Unlinked P q :=
  fun _ _ _ _ _ _ live => nomatch hq.symm.trans live

/-- What two outlines of the same computation share. -/
structure Keeps (O O' : Outline α) : Prop where
  inputs : O'.inputs = O.inputs
  outputs : O'.outputs = O.outputs
  designated : ∀ v, v ∈ O.inputs ∨ v ∈ O.outputs → ∃ t t', O.tensors v = some t ∧
    O'.tensors v = some t' ∧ t'.name = t.name ∧ t'.shape = t.shape
  operators : ∀ o op', O'.operators o = some op' → ∃ op, O.operators o = some op

theorem Keeps.trans {O O' O'' : Outline α} (h : O.Keeps O') (h' : O'.Keeps O'') :
    O.Keeps O'' where
  inputs := h'.inputs.trans h.inputs
  outputs := h'.outputs.trans h.outputs
  designated v hv := by
    obtain ⟨t, t', ht, ht', name, shape⟩ := h.designated v hv
    obtain ⟨s, s', hs, hs', name', shape'⟩ := h'.designated v (h.inputs ▸ h.outputs ▸ hv)
    cases ht'.symm.trans hs
    exact ⟨t, s', ht, hs', name'.trans name, shape'.trans shape⟩
  operators o op' ho := by
    obtain ⟨op, ho⟩ := h'.operators o op' ho
    exact h.operators o op ho

theorem Keeps.pruned {O O' : Outline α} (h : O.Keeps O') : O.Keeps O'.pruned where
  inputs := h.inputs
  outputs := h.outputs
  designated v hv := by
    obtain ⟨t, t', ht, ht', same⟩ := h.designated v hv
    have needed : O'.Needed v := .inr (.inr (h.inputs ▸ h.outputs ▸ hv))
    exact ⟨t, t', ht, by rw [pruned_tensors needed, ht'], same⟩
  operators := h.operators

end Outline

theorem Graph.keeps_refl {g : Graph α} (h : g.Linked) : g.outline.Keeps g.outline where
  inputs := rfl
  outputs := rfl
  designated v hv := by
    obtain ⟨t, ht⟩ := h.designated_live hv
    exact ⟨t, t, ht, ht, rfl, rfl⟩
  operators o op ho := ⟨op, ho⟩

section

variable {g : Graph α}

open TensorGraph.Graph

theorem singleUseConsumer?_iff (h : g.Linked) {v : VariableId} {o : OperatorId} :
    g.singleUseConsumer? v = some o ↔ g.outline.Once v o ∧ v ∉ g.outputs := by
  cases hx : g.variableAt? v with
  | none =>
    simp only [singleUseConsumer?, hx]
    refine ⟨(nomatch ·), fun ⟨once, _⟩ => ?_⟩
    obtain ⟨x, hx'⟩ := live_iff.1 (h.input_live once.reads)
    cases hx.symm.trans hx'
  | some x =>
    have readers := h.mem_consumers hx
    have nodup := h.consumers_nodup hx
    simp only [singleUseConsumer?, hx]
    constructor
    · intro found
      split at found
      · next c hc =>
        split at found
        · next use =>
          cases found
          rw [hc] at readers
          obtain ⟨op, ho, _⟩ := (readers o).1 List.mem_cons_self
          have ho : g.operatorAt? o = some op := ho
          have out : v ∉ g.outputs ∧ op.inputs.count v = 1 := by
            simpa [isOutput, uses_of ho] using use
          refine ⟨⟨⟨op, ho, out.2⟩, fun c read => ?_⟩, out.1⟩
          exact List.mem_singleton.1 ((readers c).2 read)
        · cases found
      · cases found
    · rintro ⟨once, out⟩
      obtain ⟨⟨op, ho, count⟩, alone⟩ := once
      have ho : g.operatorAt? o = some op := ho
      have single : x.consumers = [o] := by
        have mem : o ∈ x.consumers := (readers o).2 (Outline.Once.reads ⟨⟨op, ho, count⟩, alone⟩)
        cases e : x.consumers with
        | nil => rw [e] at mem; cases mem
        | cons c rest =>
          rw [e] at readers nodup
          have first : c = o := alone c ((readers c).1 List.mem_cons_self)
          cases rest with
          | nil => rw [first]
          | cons d rest =>
            have second : d = o :=
              alone d ((readers d).1 (List.mem_cons_of_mem c List.mem_cons_self))
            rw [first, second] at nodup
            exact absurd List.mem_cons_self (List.nodup_cons.1 nodup).1
      simp [single, isOutput, uses_of ho, count, out]

theorem fusibleProducer?_iff (h : g.Linked) {v : VariableId} {p q : OperatorId} :
    g.fusibleProducer? v q = some p ↔ g.outline.Link v p q := by
  unfold fusibleProducer?
  constructor
  · intro found
    split at found
    · next single =>
      obtain ⟨once, out⟩ := (singleUseConsumer?_iff h).1 single
      exact ⟨(producer?_iff h).1 found, once, out⟩
    · cases found
  · intro link
    rw [if_pos ((singleUseConsumer?_iff h).2 ⟨link.once, link.inner⟩)]
    exact (producer?_iff h).2 link.writes

end

/-- `O'` is `O` with more tensors. -/
structure Extends (O O' : Outline α) : Prop where
  operators : O'.operators = O.operators
  inputs : O'.inputs = O.inputs
  outputs : O'.outputs = O.outputs
  tensors : ∀ {v}, O.Live v → O'.tensors v = O.tensors v
  fresh : ∀ {v}, ¬O.Live v → 0 ∉ O'.shape v

namespace Extends

variable {O O' O'' : Outline α}

theorem live (h : Extends O O') {v : VariableId} (hv : O.Live v) : O'.Live v := by
  obtain ⟨t, ht⟩ := hv
  exact ⟨t, by rw [h.tensors ⟨t, ht⟩, ht]⟩

theorem shape_eq (h : Extends O O') {v : VariableId} (hv : O.Live v) :
    O'.shape v = O.shape v := by
  rw [Outline.shape, Outline.shape, h.tensors hv]

theorem payload?_eq (h : Extends O O') {v : VariableId} (hv : O.Live v) :
    O'.payload? v = O.payload? v := by
  rw [Outline.payload?, Outline.payload?, h.tensors hv]

theorem trans (h : Extends O O') (h' : Extends O' O'') : Extends O O'' where
  operators := h'.operators.trans h.operators
  inputs := h'.inputs.trans h.inputs
  outputs := h'.outputs.trans h.outputs
  tensors hv := by rw [h'.tensors (h.live hv), h.tensors hv]
  fresh {v} dead := by
    by_cases hv : O'.Live v
    · rw [h'.shape_eq hv]
      exact h.fresh dead
    · exact h'.fresh hv

end Extends

theorem extends_refl {O : Outline α} (positive : ∀ v, 0 ∉ O.shape v) : Extends O O :=
  ⟨rfl, rfl, rfl, fun _ => rfl, fun {v} _ => positive v⟩

/-- A new constant. -/
theorem addConstant_extends {g : Graph α} (h : g.Linked) (name : String) (shape : Shape)
    {payload : Array α} (size : payload.size = shape.size) (positive : 0 ∉ shape) :
    ∃ v O', Edit.Yields (Edit.addConstant name shape payload) g v O' ∧ Extends g.outline O' ∧
      O'.payload? v = some payload ∧ O'.shape v = shape ∧ ¬g.outline.Live v := by
  let v := g.freshVariable
  let O' := g.outline.setTensor v ⟨name, shape, some payload⟩
  have dead : ¬g.outline.Live v := fun ⟨t, ht⟩ => by
    rw [Graph.outline_tensors_fresh] at ht
    cases ht
  have new : O'.tensors v = some ⟨name, shape, some payload⟩ := by simp [O']
  have old {u : VariableId} (ne : u ≠ v) : O'.tensors u = g.outline.tensors u := by simp [O', ne]
  refine ⟨v, O', Edit.addConstant_yields h name size, ⟨rfl, rfl, rfl, fun {u} hu => ?_,
    fun {u} hu => ?_⟩, Outline.payload?_of new, Outline.shape_of new, dead⟩
  · exact old fun e => dead (e ▸ hu)
  · by_cases e : u = v
    · rw [e, Outline.shape_of new]
      exact positive
    · have none_left : O'.tensors u = none := by
        rw [old e]
        cases ht : g.outline.tensors u with
        | none => rfl
        | some t => exact absurd ⟨t, ht⟩ hu
      simp [Outline.shape, none_left]

/-- An outline with two new constants `a` and `b`. -/
structure TwoConstants (O O' : Outline α) (a b : VariableId) (s t : Shape) (p q : Array α) :
    Prop where
  grows : Extends O O'
  payload_fst : O'.payload? a = some p
  payload_snd : O'.payload? b = some q
  shape_fst : O'.shape a = s
  shape_snd : O'.shape b = t
  dead : ∀ u ∈ [a, b], ¬O.Live u

section

variable {O O' : Outline α} {a b x u : VariableId} {s t : Shape} {p q : Array α}

theorem TwoConstants.constant (h : TwoConstants O O' a b s t p q) :
    ∀ u ∈ [a, b], O'.payload? u ≠ none := by
  intro u hu
  rcases List.mem_pair.1 hu with rfl | rfl
  · rw [h.payload_fst]
    exact (nomatch ·)
  · rw [h.payload_snd]
    exact (nomatch ·)

theorem TwoConstants.live (h : TwoConstants O O' a b s t p q) (hx : O.Live x) :
    ∀ u ∈ [x, a, b], O'.Live u := by
  intro u hu
  rcases List.mem_cons.1 hu with rfl | hu
  · exact h.grows.live hx
  · exact Outline.live_of_payload (h.constant u hu)

/-- A value from before that is an operand beside the new constants. -/
theorem TwoConstants.eq_of_live (h : TwoConstants O O' a b s t p q) (live : O.Live u)
    (hu : u ∈ [x, a, b]) : u = x :=
  (List.mem_cons.1 hu).resolve_right fun hu => h.dead u hu live

end

theorem addConstants {g : Graph α} (h : g.Linked) (first second : String) (s t : Shape)
    {p q : Array α} (size_fst : p.size = s.size) (size_snd : q.size = t.size)
    (positive_fst : 0 ∉ s) (positive_snd : 0 ∉ t) : ∃ a b O',
      TwoConstants g.outline O' a b s t p q ∧
      ∀ {β : Type} {k : VariableId → VariableId → Edit α β} {y : β} {O'' : Outline α},
        (∀ g', g'.Linked → g'.outline = O' → Edit.Yields (k a b) g' y O'') →
        Edit.Yields (do
          let a ← Edit.addConstant first s p
          let b ← Edit.addConstant second t q
          k a b) g y O'' := by
  obtain ⟨a, O₁, ⟨g₁, run₁, h₁, e₁⟩, ext₁, payload₁, shape₁, dead₁⟩ :=
    addConstant_extends h first s size_fst positive_fst
  obtain ⟨b, O₂, ⟨g₂, run₂, h₂, e₂⟩, ext₂, payload₂, shape₂, dead₂⟩ :=
    addConstant_extends h₁ second t size_snd positive_snd
  rw [e₁] at ext₂ dead₂
  have live₁ : O₁.Live a := Outline.live_of_payload (by rw [payload₁]; exact (nomatch ·))
  refine ⟨a, b, O₂, ⟨ext₁.trans ext₂, ?_, payload₂, ?_, shape₂, fun u hu => ?_⟩,
    fun rest => ?_⟩
  · rw [ext₂.payload?_eq live₁, payload₁]
  · rw [ext₂.shape_eq live₁, shape₁]
  · rcases List.mem_pair.1 hu with rfl | rfl
    · exact dead₁
    · exact fun live => dead₂ (ext₁.live live)
  · obtain ⟨g₃, run₃, rest₃⟩ := rest g₂ h₂ e₂
    refine ⟨g₃, ?_, rest₃⟩
    rw [Edit.run_bind_ok run₁, Edit.run_bind_ok run₂]
    exact run₃

/-- `O'` has `op` instead of the operators `host :: gone` of `O`, and perhaps more tensors. -/
structure Splice (O O' : Outline α) (host : OperatorId) (gone : List OperatorId)
    (op : Operator α) : Prop where
  inputs : O'.inputs = O.inputs
  outputs : O'.outputs = O.outputs
  tensors : ∀ {v}, O.Live v → O'.tensors v = O.tensors v
  fresh : ∀ {v}, ¬O.Live v → 0 ∉ O'.shape v
  group_live : ∀ c ∈ host :: gone, ∃ op, O.operators c = some op
  operators_host : O'.operators host = some op
  operators_gone : ∀ p ∈ gone, O'.operators p = none
  operators_other : ∀ p, p ∉ host :: gone → O'.operators p = O.operators p

/-- More tensors first, then other operators. -/
theorem Extends.splice {O O₁ O' : Outline α} {host : OperatorId} {gone : List OperatorId}
    {op : Operator α} (h : Extends O O₁) (tensors : O'.tensors = O₁.tensors)
    (inputs : O'.inputs = O₁.inputs) (outputs : O'.outputs = O₁.outputs)
    (group_live : ∀ c ∈ host :: gone, ∃ op, O.operators c = some op)
    (operators_host : O'.operators host = some op)
    (operators_gone : ∀ p ∈ gone, O'.operators p = none)
    (operators_other : ∀ p, p ∉ host :: gone → O'.operators p = O₁.operators p) :
    Splice O O' host gone op where
  inputs := inputs.trans h.inputs
  outputs := outputs.trans h.outputs
  tensors hv := by rw [tensors, h.tensors hv]
  fresh {v} dead := by
    have same : O'.shape v = O₁.shape v := by rw [Outline.shape, Outline.shape, tensors]
    rw [same]
    exact h.fresh dead
  group_live := group_live
  operators_host := operators_host
  operators_gone := operators_gone
  operators_other p hp := by rw [operators_other p hp, h.operators]

/-- One operator is replaced. -/
theorem Extends.splice_one {O O₁ : Outline α} (h : Extends O O₁) {o : OperatorId}
    {old op : Operator α} (ho : O.operators o = some old) :
    Splice O (O₁.setOperator o (some op)) o [] op :=
  h.splice rfl rfl rfl (fun c hc => ⟨old, by rw [List.mem_singleton.1 hc]; exact ho⟩) (by simp)
    (fun _ hc => nomatch hc) fun c hc => by simp [List.mem_singleton.not.1 hc]

/-- One operator is replaced, and another one goes. -/
theorem Extends.splice_two {O O₁ : Outline α} (h : Extends O O₁) {host other : OperatorId}
    {first second op : Operator α} (hfirst : O.operators host = some first)
    (hsecond : O.operators other = some second) (ne : host ≠ other) :
    Splice O ((O₁.setOperator other none).setOperator host (some op)) host [other] op := by
  refine h.splice rfl rfl rfl (fun c hc => ?_) (by simp) (fun c hc => ?_) fun c hc => ?_
  · rcases List.mem_pair.1 hc with rfl | rfl
    · exact ⟨first, hfirst⟩
    · exact ⟨second, hsecond⟩
  · rw [List.mem_singleton.1 hc]
    simp [ne.symm]
  · rw [List.mem_pair, not_or] at hc
    simp [hc]

/-- The operators `host :: gone` of `O` become `op`, which computes the result `w` of `last`. -/
structure Collapse [Scalar α] (rank : OperatorId → Nat) (O O' : Outline α)
    (host last : OperatorId) (gone : List OperatorId) (op : Operator α) (w : VariableId) : Prop
    extends Splice O O' host gone op where
  outputs_eq : op.outputs = [w]
  last_mem : last ∈ host :: gone
  last_writes : O.Writes last w
  typed : op.kind.outputShape (op.inputs.map O'.shape) = .ok (O.shape w)
  host_le : rank host ≤ rank last
  group_le : ∀ c ∈ host :: gone, rank c ≤ rank last
  /-- The operands are constants, and values that the group read from outside. -/
  operands : ∀ v ∈ op.inputs, O'.payload? v ≠ none ∨
    (∃ c ∈ host :: gone, rank c ≤ rank host ∧ O.Reads c v) ∧ ∀ p ∈ host :: gone, ¬O.Writes p v
  /-- All such values are operands. -/
  kept : ∀ c ∈ host :: gone, ∀ v, O.Reads c v → O.payload? v = none →
    (∀ p ∈ host :: gone, ¬O.Writes p v) → v ∈ op.inputs
  /-- A value that the group read twice is read twice. -/
  once : ∀ v, op.inputs.count v = 1 → O.Live v → O.payload? v = none →
    (∀ p ∈ host :: gone, ¬O.Writes p v) → ∃ c ∈ host :: gone,
      (∃ op, O.operators c = some op ∧ op.inputs.count v = 1) ∧
      ∀ c' ∈ host :: gone, O.Reads c' v → c' = c
  /-- What the group computed for itself goes. -/
  inner : ∀ c ∈ host :: gone, ∀ v, O.Writes c v → v ≠ w →
    v ∉ O.outputs ∧ ∀ q, O.Reads q v → q ∈ host :: gone

namespace Collapse

variable [Scalar α] {rank : OperatorId → Nat} {g : Graph α} {O' : Outline α}
  {host last : OperatorId} {gone : List OperatorId} {op : Operator α} {w : VariableId}

theorem writes (h : Collapse rank g.outline O' host last gone op w) {a : OperatorId}
    {v : VariableId} (written : O'.Writes a v) :
    (a = host ∧ v = w) ∨ a ∉ host :: gone ∧ g.outline.Writes a v := by
  obtain ⟨op', ha, hv⟩ := written
  by_cases e : a = host
  · subst e
    cases h.operators_host.symm.trans ha
    rw [h.outputs_eq] at hv
    exact .inl ⟨rfl, List.mem_singleton.1 hv⟩
  · by_cases hg : a ∈ gone
    · rw [h.operators_gone a hg] at ha
      cases ha
    · have other : a ∉ host :: gone := fun hm => (List.mem_cons.1 hm).elim e hg
      rw [h.operators_other a other] at ha
      exact .inr ⟨other, op', ha, hv⟩

theorem reads (h : Collapse rank g.outline O' host last gone op w) {b : OperatorId}
    {v : VariableId} (read : O'.Reads b v) :
    (b = host ∧ v ∈ op.inputs) ∨ b ∉ host :: gone ∧ g.outline.Reads b v := by
  obtain ⟨op', hb, hv⟩ := read
  by_cases e : b = host
  · subst e
    cases h.operators_host.symm.trans hb
    exact .inl ⟨rfl, hv⟩
  · by_cases hg : b ∈ gone
    · rw [h.operators_gone b hg] at hb
      cases hb
    · have other : b ∉ host :: gone := fun hm => (List.mem_cons.1 hm).elim e hg
      rw [h.operators_other b other] at hb
      exact .inr ⟨other, op', hb, hv⟩

theorem writes_host (h : Collapse rank g.outline O' host last gone op w) : O'.Writes host w :=
  ⟨op, h.operators_host, by rw [h.outputs_eq]; exact List.mem_singleton.2 rfl⟩

theorem last_outputs (h : Collapse rank g.outline O' host last gone op w)
    (sound : g.outline.Sound rank) {opl : Operator α} (hl : g.operatorAt? last = some opl) :
    opl.outputs = [w] := by
  obtain ⟨v, outputs, _⟩ := sound.result hl
  have written := (Outline.writes_iff hl).1 h.last_writes
  rw [outputs] at written ⊢
  rw [List.mem_singleton.1 written]

theorem writes_other (h : Collapse rank g.outline O' host last gone op w) {a : OperatorId}
    {v : VariableId} (other : a ∉ host :: gone) (written : g.outline.Writes a v) :
    O'.Writes a v := by
  obtain ⟨op', ha, hv⟩ := written
  exact ⟨op', by rw [h.operators_other a other, ha], hv⟩

theorem reads_other (h : Collapse rank g.outline O' host last gone op w) {b : OperatorId}
    {v : VariableId} (other : b ∉ host :: gone) (read : g.outline.Reads b v) : O'.Reads b v := by
  obtain ⟨op', hb, hv⟩ := read
  exact ⟨op', by rw [h.operators_other b other, hb], hv⟩

theorem shape_eq (h : Collapse rank g.outline O' host last gone op w) {v : VariableId}
    (live : g.outline.Live v) : O'.shape v = g.outline.shape v := by
  rw [Outline.shape, Outline.shape, h.tensors live]

theorem payload?_eq (h : Collapse rank g.outline O' host last gone op w) {v : VariableId}
    (live : g.outline.Live v) : O'.payload? v = g.outline.payload? v := by
  rw [Outline.payload?, Outline.payload?, h.tensors live]

/-- Nothing in the group reads its result. -/
theorem unread (h : Collapse rank g.outline O' host last gone op w)
    (sound : g.outline.Sound rank) {c : OperatorId} (hc : c ∈ host :: gone) :
    ¬g.outline.Reads c w := sound.not_reads h.last_writes (h.group_le c hc)

/-- What an operator outside writes is not written by the group. -/
theorem unwritten (_ : Collapse rank g.outline O' host last gone op w) (linked : g.Linked)
    {a : OperatorId} {v : VariableId} (other : a ∉ host :: gone)
    (written : g.outline.Writes a v) : ∀ p ∈ host :: gone, ¬g.outline.Writes p v :=
  fun _ hp written' => other (linked.writer_unique written written' ▸ hp)

theorem sound (h : Collapse rank g.outline O' host last gone op w) (linked : g.Linked)
    (sound : g.outline.Sound rank) : O'.Sound rank where
  result {o op'} ho := by
    by_cases e : o = host
    · subst e
      cases h.operators_host.symm.trans ho
      exact ⟨w, h.outputs_eq, by rw [h.shape_eq (linked.output_live h.last_writes), h.typed]⟩
    · by_cases hg : o ∈ gone
      · rw [h.operators_gone o hg] at ho
        cases ho
      · have other : o ∉ host :: gone := fun hm => (List.mem_cons.1 hm).elim e hg
        rw [h.operators_other o other] at ho
        obtain ⟨v, hv, typed⟩ := sound.result ho
        have written : g.outline.Writes o v := ⟨op', ho, hv ▸ List.mem_singleton.2 rfl⟩
        have shapes : op'.inputs.map O'.shape = op'.inputs.map g.outline.shape :=
          List.map_congr_left fun u hu => h.shape_eq (linked.input_live ⟨op', ho, hu⟩)
        exact ⟨v, hv, by rw [shapes, h.shape_eq (linked.output_live written), typed]⟩
  computed {a v} written := by
    rcases h.writes written with ⟨_, rfl⟩ | ⟨_, written⟩
    · rw [h.payload?_eq (linked.output_live h.last_writes)]
      exact sound.computed h.last_writes
    · rw [h.payload?_eq (linked.output_live written)]
      exact sound.computed written
  positive v := by
    by_cases live : g.outline.Live v
    · rw [h.shape_eq live]
      exact sound.positive v
    · exact h.fresh live
  inputs_free {v} hv := by
    rw [h.inputs] at hv
    obtain ⟨unset, unwritten⟩ := sound.inputs_free hv
    refine ⟨by rw [h.payload?_eq (linked.designated_live (.inl hv)), unset], fun a written => ?_⟩
    rcases h.writes written with ⟨_, rfl⟩ | ⟨_, written⟩
    · exact unwritten last h.last_writes
    · exact unwritten a written
  sourced {v} hv := by
    -- A source in `O` is one in `O'`, as long as `v` is not computed inside the group.
    have source (used : (∃ o, g.outline.Reads o v) ∨ v ∈ g.outline.outputs)
        (outside : ∀ p ∈ host :: gone, g.outline.Writes p v → v = w) :
        O'.payload? v ≠ none ∨ (∃ o, O'.Writes o v) ∨ v ∈ O'.inputs := by
      have live : g.outline.Live v := used.elim (fun ⟨_, read⟩ => linked.input_live read)
        fun out => linked.designated_live (.inr out)
      rcases sound.sourced used with constant | ⟨o, written⟩ | input
      · exact .inl (by rwa [h.payload?_eq live])
      · by_cases ho : o ∈ host :: gone
        · exact .inr (.inl ⟨host, outside o ho written ▸ h.writes_host⟩)
        · exact .inr (.inl ⟨o, h.writes_other ho written⟩)
      · exact .inr (.inr (by rw [h.inputs]; exact input))
    rcases hv with ⟨b, read⟩ | out
    · rcases h.reads read with ⟨_, hv⟩ | ⟨other, read⟩
      · rcases h.operands v hv with constant | ⟨⟨c, _, _, read⟩, outside⟩
        · exact .inl constant
        · exact source (.inl ⟨c, read⟩) fun p hp written => absurd written (outside p hp)
      · refine source (.inl ⟨b, read⟩) fun p hp written => ?_
        by_contra ne
        exact other ((h.inner p hp v written ne).2 b read)
    · rw [h.outputs] at out
      refine source (.inr out) fun p hp written => ?_
      by_contra ne
      exact (h.inner p hp v written ne).1 out
  used {a v} written := by
    rw [h.outputs]
    rcases h.writes written with ⟨_, rfl⟩ | ⟨other, written⟩
    · refine (sound.used h.last_writes).imp_left fun ⟨c, read⟩ => ?_
      by_cases hc : c ∈ host :: gone
      · exact absurd read (h.unread sound hc)
      · exact ⟨c, h.reads_other hc read⟩
    · refine (sound.used written).imp_left fun ⟨c, read⟩ => ?_
      by_cases hc : c ∈ host :: gone
      · exact ⟨host, op, h.operators_host, h.kept c hc v read (sound.computed written)
          (h.unwritten linked other written)⟩
      · exact ⟨c, h.reads_other hc read⟩
  ranked a b := by
    rintro ⟨v, written, read⟩
    rcases h.writes written with ⟨rfl, rfl⟩ | ⟨other, written⟩
    · rcases h.reads read with ⟨_, hv⟩ | ⟨_, read⟩
      · rcases h.operands v hv with constant | ⟨_, outside⟩
        · rw [h.payload?_eq (linked.output_live h.last_writes)] at constant
          exact absurd (sound.computed h.last_writes) constant
        · exact absurd h.last_writes (outside last h.last_mem)
      · have := sound.ranked last b ⟨v, h.last_writes, read⟩
        have := h.host_le
        omega
    · rcases h.reads read with ⟨rfl, hv⟩ | ⟨_, read⟩
      · rcases h.operands v hv with constant | ⟨⟨c, _, le, read⟩, _⟩
        · rw [h.payload?_eq (linked.output_live written)] at constant
          exact absurd (sound.computed written) constant
        · have := sound.ranked a c ⟨v, written, read⟩
          omega
      · exact sound.ranked a b ⟨v, written, read⟩

theorem keeps (h : Collapse rank g.outline O' host last gone op w) (linked : g.Linked) :
    g.outline.Keeps O' where
  inputs := h.inputs
  outputs := h.outputs
  designated v hv := by
    obtain ⟨t, ht⟩ := linked.designated_live hv
    exact ⟨t, t, ht, by rw [h.tensors ⟨t, ht⟩, ht], rfl, rfl⟩
  operators p op' hp := by
    by_cases hg : p ∈ host :: gone
    · exact h.group_live p hg
    · rw [h.operators_other p hg] at hp
      exact ⟨op', hp⟩

/-- Where a link after the collapse comes from. -/
theorem link (h : Collapse rank g.outline O' host last gone op w) (linked : g.Linked)
    (sound : g.outline.Sound rank) {v : VariableId} {p q : OperatorId} (link : O'.Link v p q) :
    (q ∉ host :: gone ∧ p = host ∧ v = w ∧ g.outline.Link v last q) ∨
      (q ∉ host :: gone ∧ p ∉ host :: gone ∧ g.outline.Link v p q) ∨
      (q = host ∧ p ∉ host :: gone ∧ v ∈ op.inputs ∧
        ∃ c ∈ host :: gone, g.outline.Link v p c) := by
  obtain ⟨written, once, inner⟩ := link
  rw [h.outputs] at inner
  rcases h.reads once.reads with ⟨rfl, hv⟩ | ⟨other, _⟩
  · rcases h.writes written with ⟨_, rfl⟩ | ⟨outside, written⟩
    · rcases h.operands v hv with constant | ⟨_, outside⟩
      · rw [h.payload?_eq (linked.output_live h.last_writes)] at constant
        exact absurd (sound.computed h.last_writes) constant
      · exact absurd h.last_writes (outside last h.last_mem)
    · obtain ⟨⟨op', hq, count⟩, alone⟩ := once
      cases h.operators_host.symm.trans hq
      obtain ⟨c, hc, counted, unique⟩ := h.once v count (linked.output_live written)
        (sound.computed written) (h.unwritten linked outside written)
      refine .inr (.inr ⟨rfl, outside, hv, c, hc, written, ⟨counted, fun c' read => ?_⟩, inner⟩)
      by_cases hc' : c' ∈ q :: gone
      · exact unique c' hc' read
      · exact absurd (alone c' (h.reads_other hc' read) ▸ List.mem_cons_self) hc'
  · obtain ⟨⟨op', hq, count⟩, alone⟩ := once
    rw [h.operators_other q other] at hq
    have restrict (fromOutside : ∀ c ∈ host :: gone, g.outline.Reads c v → False) :
        g.outline.Once v q := by
      refine ⟨⟨op', hq, count⟩, fun c read => ?_⟩
      by_cases hc : c ∈ host :: gone
      · exact (fromOutside c hc read).elim
      · exact alone c (h.reads_other hc read)
    rcases h.writes written with ⟨rfl, rfl⟩ | ⟨outside, written⟩
    · exact .inl ⟨other, rfl, rfl, h.last_writes,
        restrict fun c hc read => h.unread sound hc read, inner⟩
    · refine .inr (.inl ⟨other, outside, written, restrict fun c hc read => ?_, inner⟩)
      have hv := h.kept c hc v read (sound.computed written) (h.unwritten linked outside written)
      exact other (alone host ⟨op, h.operators_host, hv⟩ ▸ List.mem_cons_self)

/-- Of two operators that become one, the first writes for the second alone. -/
theorem pair_link {p o : OperatorId} {producer reader : Operator α}
    (h : Collapse rank g.outline O' p o [o] op w) (linked : g.Linked)
    (sound : g.outline.Sound rank) (ne : p ≠ o) (hp : g.operatorAt? p = some producer)
    (ho : g.operatorAt? o = some reader)
    (once : ∀ v ∈ reader.inputs, g.outline.payload? v = none → reader.inputs.count v = 1) :
    ∃ v, producer.outputs = [v] ∧ v ≠ w ∧ g.outline.Link v p o := by
  obtain ⟨v, outputs, _⟩ := sound.result hp
  have writes : g.outline.Writes p v :=
    ⟨producer, hp, by rw [outputs]; exact List.mem_singleton.2 rfl⟩
  have differ : v ≠ w := fun e => ne (linked.writer_unique (e ▸ writes) h.last_writes)
  obtain ⟨inner, readers⟩ := h.inner p List.mem_cons_self v writes differ
  -- The producer does not read its own result, so only `o` can.
  have alone (c : OperatorId) (read : g.outline.Reads c v) : c = o := by
    rcases List.mem_pair.1 (readers c read) with rfl | rfl
    · exact absurd read (sound.not_reads writes (Nat.le_refl _))
    · rfl
  obtain ⟨c, read⟩ := (sound.used writes).resolve_right inner
  cases alone c read
  have count := once v ((Outline.reads_iff ho).1 read) (sound.computed writes)
  exact ⟨v, outputs, differ, writes, ⟨⟨reader, ho, count⟩, alone⟩, inner⟩

variable {P : Outline α → Operator α → Operator α → Prop}

/-- A rule about links still holds at a reader outside, if it does for what the operator writes
now. -/
theorem unlinked_other (h : Collapse rank g.outline O' host last gone op w) (linked : g.Linked)
    (sound : g.outline.Sound rank) {q : OperatorId} (hq : q ∉ host :: gone)
    (same : ∀ p producer reader, g.operatorAt? p = some producer → g.operatorAt? q = some reader →
      P O' producer reader → P g.outline producer reader)
    (now : ∀ producer reader, g.outline.Reads q w → g.operatorAt? last = some producer →
      g.operatorAt? q = some reader → P O' op reader → P g.outline producer reader)
    (quiet : g.outline.Unlinked P q) : O'.Unlinked P q := by
  intro v p producer reader link hp hq' broken
  rw [h.operators_other q hq] at hq'
  rcases h.link linked sound link with ⟨_, rfl, rfl, before⟩ | ⟨_, other, before⟩ | ⟨rfl, _⟩
  · cases h.operators_host.symm.trans hp
    obtain ⟨producer, hl, _⟩ := h.last_writes
    exact quiet v last producer reader before hl hq'
      (now producer reader before.once.reads hl hq' broken)
  · rw [h.operators_other p other] at hp
    exact quiet v p producer reader before hp hq' (same p producer reader hp hq' broken)
  · exact hq List.mem_cons_self

/-- A rule about links holds at the new operator, if it does for whatever was linked to one of the
old ones, as late as the first of them at most. -/
theorem unlinked_host (h : Collapse rank g.outline O' host last gone op w) (linked : g.Linked)
    (sound : g.outline.Sound rank)
    (outside : ∀ v p c producer reader, c ∈ host :: gone → rank c ≤ rank host →
      p ∉ host :: gone → g.outline.Link v p c → g.operatorAt? p = some producer →
      g.operatorAt? c = some reader → ¬P O' producer op) : O'.Unlinked P host := by
  intro v p producer reader link hp hq broken
  cases h.operators_host.symm.trans hq
  rcases h.link linked sound link with ⟨no, _⟩ | ⟨no, _⟩ | ⟨_, other, hv, c, hc, before⟩
  · exact no List.mem_cons_self
  · exact no List.mem_cons_self
  · rw [h.operators_other p other] at hp
    obtain ⟨reader, hr⟩ := h.group_live c hc
    have early : rank c ≤ rank host := by
      rcases h.operands v hv with constant | ⟨⟨c', _, le, read⟩, _⟩
      · rw [h.payload?_eq (linked.output_live before.writes)] at constant
        exact absurd (sound.computed before.writes) constant
      · exact before.once.2 c' read ▸ le
    exact outside v p c producer reader hc early other before hp hr broken

end Collapse

section

variable [Scalar α] {rank : OperatorId → Nat} {g : Graph α} {O' : Outline α} {v w : VariableId}

/-- Two operators that a link joins become one, if it has the operands of the first up to
constants, and the second one reads constants besides the link. -/
theorem collapse_link (sound : g.outline.Sound rank) {p o : OperatorId}
    {producer reader op : Operator α} (link : g.outline.Link v p o)
    (hp : g.operatorAt? p = some producer) (ho : g.operatorAt? o = some reader)
    {host other : OperatorId} (pair : host = o ∧ other = p ∨ host = p ∧ other = o)
    (splice : Splice g.outline O' host [other] op) (outputs : op.outputs = [w])
    (writes : reader.outputs = [w])
    (typed : op.kind.outputShape (op.inputs.map O'.shape) = .ok (g.outline.shape w))
    (operands : ∀ u ∈ op.inputs, O'.payload? u ≠ none ∨ u ∈ producer.inputs)
    (kept : ∀ u ∈ producer.inputs, g.outline.payload? u = none → u ∈ op.inputs)
    (parameters : ∀ u ∈ reader.inputs, u = v ∨ g.outline.payload? u ≠ none)
    (once : ∀ u, g.outline.Live u → g.outline.payload? u = none → op.inputs.count u = 1 →
      producer.inputs.count u = 1) :
    Collapse rank g.outline O' host o [other] op w := by
  have lt : rank p < rank o := link.lt sound
  have mem (c : OperatorId) : c ∈ host :: [other] ↔ c = p ∨ c = o := by
    rw [List.mem_pair]
    rcases pair with ⟨rfl, rfl⟩ | ⟨rfl, rfl⟩
    · exact or_comm
    · exact Iff.rfl
  have le : ∀ c ∈ host :: [other], rank c ≤ rank o := fun c hc => by
    rcases (mem c).1 hc with rfl | rfl <;> omega
  have hostLe : rank p ≤ rank host := by
    rcases pair with ⟨rfl, rfl⟩ | ⟨rfl, rfl⟩ <;> omega
  have outside {u : VariableId} (hu : u ∈ producer.inputs) :
      ∀ c ∈ host :: [other], ¬g.outline.Writes c u := fun c hc written => by
    have := sound.ranked c p ⟨u, written, producer, hp, hu⟩
    rcases (mem c).1 hc with rfl | rfl <;> omega
  have between {u : VariableId} (hu : u ∈ reader.inputs) (unset : g.outline.payload? u = none) :
      u = v := (parameters u hu).resolve_right fun constant => constant unset
  refine { splice with
    outputs_eq := outputs
    last_mem := (mem o).2 (.inr rfl)
    last_writes := ⟨reader, ho, writes ▸ List.mem_singleton.2 rfl⟩
    typed := typed
    host_le := le host List.mem_cons_self
    group_le := le
    operands := fun u hu => (operands u hu).imp_right fun hu =>
      ⟨⟨p, (mem p).2 (.inl rfl), hostLe, producer, hp, hu⟩, outside hu⟩
    kept := fun c hc u read unset unwritten => ?_
    once := fun u count live unset unwritten => ?_
    inner := fun c hc u written ne => ?_ }
  · rcases (mem c).1 hc with rfl | rfl
    · exact kept u ((Outline.reads_iff hp).1 read) unset
    · cases between ((Outline.reads_iff ho).1 read) unset
      exact absurd link.writes (unwritten p ((mem p).2 (.inl rfl)))
  · refine ⟨p, (mem p).2 (.inl rfl), ⟨producer, hp, once u live unset count⟩, fun c hc read => ?_⟩
    rcases (mem c).1 hc with rfl | rfl
    · rfl
    · cases between ((Outline.reads_iff ho).1 read) unset
      exact absurd link.writes (unwritten p ((mem p).2 (.inl rfl)))
  · have single : c = p ∧ u = v := by
      rcases (mem c).1 hc with rfl | rfl
      · obtain ⟨z, hz, _⟩ := sound.result hp
        have hu := (Outline.writes_iff hp).1 written
        rw [hz] at hu
        exact ⟨rfl, (List.mem_singleton.1 hu).trans (link.eq_output hp hz).symm⟩
      · have hu := (Outline.writes_iff ho).1 written
        rw [writes] at hu
        exact absurd (List.mem_singleton.1 hu) ne
    obtain ⟨rfl, rfl⟩ := single
    exact ⟨link.inner, fun q read => (mem q).2 (.inr (link.once.2 q read))⟩

/-- One operator changes its kind or its constants. -/
theorem collapse_self (sound : g.outline.Sound rank) {o : OperatorId} {op op' : Operator α}
    (ho : g.operatorAt? o = some op) (splice : Splice g.outline O' o [] op')
    (outputs : op'.outputs = op.outputs) (writes : op.outputs = [w])
    (typed : op'.kind.outputShape (op'.inputs.map O'.shape) = .ok (g.outline.shape w))
    (operands : ∀ u ∈ op'.inputs, O'.payload? u ≠ none ∨ u ∈ op.inputs)
    (kept : ∀ u ∈ op.inputs, g.outline.payload? u = none → u ∈ op'.inputs)
    (once : ∀ u, g.outline.Live u → g.outline.payload? u = none → op'.inputs.count u = 1 →
      op.inputs.count u = 1) :
    Collapse rank g.outline O' o o [] op' w := by
  have mem {c : OperatorId} (hc : c ∈ [o]) : c = o := List.mem_singleton.1 hc
  have writes_w : g.outline.Writes o w := ⟨op, ho, writes ▸ List.mem_singleton.2 rfl⟩
  refine { splice with
    outputs_eq := outputs.trans writes
    last_mem := List.mem_cons_self
    last_writes := writes_w
    typed := typed
    host_le := Nat.le_refl _
    group_le := fun c hc => Nat.le_of_eq (by rw [mem hc])
    operands := fun u hu => (operands u hu).imp_right fun hu => ?_
    kept := fun c hc u read unset _ => ?_
    once := fun u count live unset _ => ?_
    inner := fun c hc u written ne => ?_ }
  · refine ⟨⟨o, List.mem_cons_self, Nat.le_refl _, op, ho, hu⟩, fun c hc written => ?_⟩
    rw [mem hc] at written
    exact sound.not_reads written (Nat.le_refl _) ⟨op, ho, hu⟩
  · rw [mem hc] at read
    exact kept u ((Outline.reads_iff ho).1 read) unset
  · exact ⟨o, List.mem_cons_self, ⟨op, ho, once u live unset count⟩, fun c hc _ => mem hc⟩
  · rw [mem hc] at written
    have hu := (Outline.writes_iff ho).1 written
    rw [writes] at hu
    exact absurd (List.mem_singleton.1 hu) ne

end

end TensorGraph
