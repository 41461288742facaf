import Mathlib.Algebra.GroupWithZero.Nat
import Mathlib.Data.List.Nodup
import Mathlib.Data.List.Perm.Subperm
import TensorGraph.Proofs.Graph.Dependency

/-!
# TensorGraph.Proofs.Graph.Order

Dependency order.

* `Outline.Precedes`: an operator reads what another one writes.
* `Outline.Ranked`: a number for every operator that grows along dependencies. A graph has one
  exactly when no operators wait for each other.
* `Sweep.Correct`: the invariant of a run of the ordering: every operator waits for its operands
  whose producers are not emitted, and those that wait for none are ready.
* `topologicalOrder_of_ranked`: in a ranked graph the ordering emits every operator, each after
  the producers of its operands.
-/

namespace TensorGraph

variable {α : Type}

namespace Sweep

/-- What the entries of a list that name `c` add up to. -/
def total (todo : List (OperatorId × Nat)) (c : OperatorId) : Nat :=
  (todo.map fun (p, uses) => if p = c then uses else 0).sum

theorem mem_insertAscending {o p : OperatorId} {os : List OperatorId} :
    p ∈ insertAscending o os ↔ p = o ∨ p ∈ os := by
  induction os with
  | nil => simp [insertAscending]
  | cons q rest ih =>
    rw [insertAscending]
    split
    · simp
    · simp only [List.mem_cons, ih]
      constructor
      · rintro (h | h | h)
        · exact .inr (.inl h)
        · exact .inl h
        · exact .inr (.inr h)
      · rintro (h | h | h)
        · exact .inr (.inl h)
        · exact .inl h
        · exact .inr (.inr h)

/-- `settle`, without a result where an operator would be told of more values than it waits for. -/
def settle? (s : Sweep) (o : OperatorId) (uses : Nat) : Option Sweep :=
  match s.waiting? o with
  | none => some s
  | some n => if uses ≤ n then some (s.settle o uses) else none

/-- Ids in ascending order, none twice. -/
def Ascending (os : List OperatorId) : Prop := os.Pairwise fun a b => a.index < b.index

theorem Ascending.insert {o : OperatorId} {os : List OperatorId} (h : Ascending os)
    (new : o ∉ os) : Ascending (insertAscending o os) := by
  induction os with
  | nil => exact List.pairwise_singleton _ _
  | cons p rest ih =>
    obtain ⟨first, tail⟩ := List.pairwise_cons.1 h
    rw [insertAscending]
    split
    · next le =>
      have ne : o.index ≠ p.index := fun e => new (by cases o; cases p; cases e; simp)
      have lt : o.index < p.index := by omega
      refine List.pairwise_cons.2 ⟨fun q hq => ?_, h⟩
      rcases List.mem_cons.1 hq with rfl | hq
      · exact lt
      · exact Nat.lt_trans lt (first q hq)
    · next gt =>
      refine List.pairwise_cons.2
        ⟨fun q hq => ?_, ih tail fun hm => new (List.mem_cons_of_mem p hm)⟩
      rcases mem_insertAscending.1 hq with rfl | hq
      · omega
      · exact first q hq

/-- The state waits for `need o` values at every operator of `os`, and those ready are the ones
among them that wait for none and are not emitted. -/
structure Waits (os : List OperatorId) (need : OperatorId → Nat) (s : Sweep) : Prop where
  pending_eq : s.pending = os.map fun o => (o, need o)
  mem_ready : ∀ o, o ∈ s.ready ↔ o ∈ os ∧ o ∉ s.emitted ∧ need o = 0
  ascending : Ascending s.ready

theorem Waits.congr {os : List OperatorId} {need need' : OperatorId → Nat} {s : Sweep}
    (h : Waits os need s) (e : ∀ o ∈ os, need o = need' o) : Waits os need' s where
  pending_eq := by
    rw [h.pending_eq]
    exact List.map_congr_left fun o ho => by rw [e o ho]
  mem_ready o := by
    rw [h.mem_ready]
    exact ⟨fun ⟨live, fresh, zero⟩ => ⟨live, fresh, e o live ▸ zero⟩,
      fun ⟨live, fresh, zero⟩ => ⟨live, fresh, e o live ▸ zero⟩⟩
  ascending := h.ascending

theorem lookup_map {os : List OperatorId} (need : OperatorId → Nat) (c : OperatorId) :
    (os.map fun o => (o, need o)).lookup c = if c ∈ os then some (need c) else none := by
  induction os with
  | nil => rfl
  | cons o rest ih =>
    rw [List.map_cons, List.lookup_cons, ih]
    by_cases e : c = o
    · subst e; simp
    · have ne : (c == o) = false := by simpa using e
      simp [ne, e]

theorem Waits.waiting?_eq {os : List OperatorId} {need : OperatorId → Nat} {s : Sweep}
    (h : Waits os need s) {c : OperatorId} (live : c ∈ os) : s.waiting? c = some (need c) := by
  rw [waiting?, h.pending_eq, lookup_map, if_pos live]

/-- One settlement. The operator has not been emitted, and it waits for the values. -/
theorem Waits.settle {os : List OperatorId} {need : OperatorId → Nat} {s : Sweep}
    (h : Waits os need s) {c : OperatorId} {uses : Nat} (live : c ∈ os) (fresh : c ∉ s.emitted)
    (positive : 0 < uses) (enough : uses ≤ need c) :
    Waits os (fun o => if o = c then need o - uses else need o) (s.settle c uses) ∧
      (s.settle c uses).emitted = s.emitted := by
  have notReady : c ∉ s.ready := fun hc => by
    have := ((h.mem_ready c).1 hc).2.2
    omega
  simp only [Sweep.settle, h.waiting?_eq live]
  refine ⟨⟨?_, fun o => ?_, ?_⟩, trivial⟩
  · simp only [h.pending_eq, List.map_map]
    refine List.map_congr_left fun o _ => ?_
    by_cases e : o = c <;> simp [e]
  · by_cases done : need c - uses = 0
    · simp only [done, if_true, mem_insertAscending, h.mem_ready o]
      by_cases e : o = c
      · subst e; simp [live, fresh, done]
      · simp [e]
    · simp only [done, if_false, h.mem_ready o]
      by_cases e : o = c
      · subst e
        have waits : need o ≠ 0 := by omega
        simp [done, waits]
      · simp [e]
  · show Ascending (if need c - uses = 0 then insertAscending c s.ready else s.ready)
    split
    · exact h.ascending.insert notReady
    · exact h.ascending

theorem total_cons (c : OperatorId) (uses : Nat) (todo : List (OperatorId × Nat))
    (o : OperatorId) :
    total ((c, uses) :: todo) o = (if c = o then uses else 0) + total todo o := rfl

theorem total_eq_zero {todo : List (OperatorId × Nat)} {o : OperatorId}
    (h : ∀ uses, (o, uses) ∉ todo) : total todo o = 0 := by
  induction todo with
  | nil => rfl
  | cons entry todo ih =>
    obtain ⟨c, uses⟩ := entry
    have ne : ¬c = o := fun e => h uses (e ▸ List.mem_cons_self)
    rw [total_cons, if_neg ne, ih fun uses' hm => h uses' (List.mem_cons_of_mem _ hm)]

theorem total_append (todo todo' : List (OperatorId × Nat)) (o : OperatorId) :
    total (todo ++ todo') o = total todo o + total todo' o := by
  rw [total, List.map_append, List.sum_append]
  rfl

/-- All settlements of one emission. None of them takes off more than is waited for. -/
theorem Waits.settleAll {os : List OperatorId} {todo : List (OperatorId × Nat)}
    {need : OperatorId → Nat} {s : Sweep} (h : Waits os need s)
    (good : ∀ c uses, (c, uses) ∈ todo → c ∈ os ∧ c ∉ s.emitted ∧ 0 < uses)
    (enough : ∀ c, total todo c ≤ need c) :
    Waits os (fun o => need o - total todo o) (todo.foldl (fun s (c, uses) => s.settle c uses) s) ∧
      (todo.foldl (fun s (c, uses) => s.settle c uses) s).emitted = s.emitted ∧
      todo.foldlM (fun s (c, uses) => s.settle? c uses) s =
        some (todo.foldl (fun s (c, uses) => s.settle c uses) s) := by
  induction todo generalizing need s with
  | nil => exact ⟨h, rfl, rfl⟩
  | cons entry todo ih =>
    obtain ⟨c, uses⟩ := entry
    obtain ⟨live, fresh, positive⟩ := good c uses List.mem_cons_self
    have first : uses ≤ need c := by
      have := enough c
      rw [total_cons, if_pos rfl] at this
      omega
    obtain ⟨step, same⟩ := h.settle live fresh positive first
    obtain ⟨rest, emitted, checked⟩ := ih step
      (fun c' uses' hm => by
        rw [same]
        exact good c' uses' (List.mem_cons_of_mem _ hm))
      (fun o => by
        have := enough o
        rw [total_cons] at this
        by_cases e : o = c
        · subst e; simp at this ⊢; omega
        · have ne : ¬c = o := fun h => e h.symm
          simp [ne] at this
          simp [e, this])
    have checked_first : s.settle? c uses = some (s.settle c uses) := by
      simp only [settle?, h.waiting?_eq live, first, if_true]
    refine ⟨?_, emitted.trans same, (congrArg (· >>= _) checked_first).trans checked⟩
    have need_eq : (fun o => need o - total ((c, uses) :: todo) o) =
        fun o => (if o = c then need o - uses else need o) - total todo o := by
      funext o
      rw [total_cons]
      by_cases e : o = c
      · subst e; simp; omega
      · have ne : ¬c = o := fun h => e h.symm
        simp [e, ne]
    rw [need_eq]
    exact rest

end Sweep

namespace Graph

variable {g : Graph α}

/-- Whether the value of `v` is still to be computed when `emitted` are the operators done. -/
def awaits (g : Graph α) (emitted : List OperatorId) (v : VariableId) : Bool :=
  match g.producer? v with
  | some p => !emitted.contains p
  | none => false

/-- How many operands of an operator are still to be computed. -/
def need (g : Graph α) (emitted : List OperatorId) (o : OperatorId) : Nat :=
  match g.operatorAt? o with
  | some op => op.inputs.countP (g.awaits emitted)
  | none => 0

/-- Slots keep the order of insertion, which is that of ids. -/
theorem operatorIds_ascending (h : g.Linked) : Sweep.Ascending g.operatorIds := by
  have rising (slots : List (Option (Operator α))) (k : Nat)
      (ids : ∀ (i : Nat) op, slots[i]? = some (some op) → op.id.index = k + i) :
      ((slots.filterMap id).map (·.id)).Pairwise (fun a b => a.index < b.index) ∧
        ∀ op ∈ slots.filterMap id, k ≤ op.id.index := by
    induction slots generalizing k with
    | nil => exact ⟨.nil, fun _ hop => nomatch hop⟩
    | cons slot slots ih =>
      obtain ⟨tail, above⟩ := ih (k + 1) fun i op hi => by
        have := ids (i + 1) op hi
        omega
      cases slot with
      | none => exact ⟨tail, fun op hop => Nat.le_of_succ_le (above op hop)⟩
      | some op =>
        have first : op.id.index = k := ids 0 op rfl
        refine ⟨List.pairwise_cons.2 ⟨fun o ho => ?_, tail⟩, fun op' hop' => ?_⟩
        · obtain ⟨op', hop', rfl⟩ := List.mem_map.1 ho
          exact Nat.lt_of_lt_of_le (first ▸ Nat.lt_succ_self k) (above op' hop')
        · rcases List.mem_cons.1 hop' with rfl | hop'
          · omega
          · have := above op' hop'
            omega
  refine (rising g.operatorSlots.slots 0 fun i op hi => ?_).1
  have ho : g.operatorAt? ⟨i⟩ = some op := by
    show (g.operatorSlots.slots[i]?).join = some op
    rw [hi]; rfl
  rw [h.operator_id ho, Nat.zero_add]

theorem need_of {o : OperatorId} {op : Operator α} (ho : g.operatorAt? o = some op)
    (emitted : List OperatorId) : g.need emitted o = op.inputs.countP (g.awaits emitted) := by
  simp only [need, ho]

theorem awaits_iff (h : g.Linked) {emitted : List OperatorId} {v : VariableId} :
    g.awaits emitted v = true ↔ ∃ p, g.outline.Writes p v ∧ p ∉ emitted := by
  unfold awaits
  cases hp : g.producer? v with
  | none =>
    constructor
    · exact (nomatch ·)
    · rintro ⟨p, hw, _⟩
      rw [(producer?_iff h).2 hw] at hp
      cases hp
  | some p =>
    have hw := (producer?_iff h).1 hp
    constructor
    · exact fun he => ⟨p, hw, by simpa using he⟩
    · rintro ⟨q, hq, he⟩
      rw [h.writer_unique hw hq]
      simpa using he

/-- An operator waits for nothing exactly when the producers of its operands are all done. -/
theorem need_eq_zero (h : g.Linked) {o : OperatorId} {op : Operator α}
    (ho : g.operatorAt? o = some op) {emitted : List OperatorId} :
    g.need emitted o = 0 ↔ ∀ a, g.outline.Precedes a o → a ∈ emitted := by
  rw [need_of ho, List.countP_eq_zero]
  constructor
  · rintro none a ⟨v, hw, op', ho', hv⟩
    cases ho.symm.trans ho'
    by_contra he
    exact none v hv ((awaits_iff h).2 ⟨a, hw, he⟩)
  · intro all v hv he
    obtain ⟨p, hw, hp⟩ := (awaits_iff h).1 he
    exact hp (all p ⟨v, hw, op, ho, hv⟩)

theorem uses_of {o : OperatorId} {op : Operator α} (ho : g.operatorAt? o = some op)
    (v : VariableId) : g.uses o v = op.inputs.count v := by
  simp only [uses, ho]

theorem total_consumers (h : g.Linked) {c : OperatorId} {reader : Operator α}
    (hc : g.operatorAt? c = some reader) {v : VariableId} {x : Variable α}
    (hx : g.variableAt? v = some x) :
    Sweep.total (x.consumers.map fun p => (p, g.uses p v)) c = reader.inputs.count v := by
  have sum (ps : List OperatorId) :
      Sweep.total (ps.map fun p => (p, g.uses p v)) c = ps.count c * g.uses c v := by
    induction ps with
    | nil => simp [Sweep.total]
    | cons p ps ih =>
      rw [List.map_cons, Sweep.total_cons, ih, List.count_cons]
      by_cases e : p = c
      · subst e; simp [Nat.add_mul, Nat.add_comm]
      · simp [e]
  rw [sum, uses_of hc]
  by_cases reads : v ∈ reader.inputs
  · have mem : c ∈ x.consumers := (h.mem_consumers hx c).2 ⟨reader, hc, reads⟩
    rw [List.count_eq_one_of_mem (h.consumers_nodup hx) mem, Nat.one_mul]
  · rw [List.count_eq_zero_of_not_mem reads, Nat.mul_zero]

theorem countP_mem_cons {v : VariableId} {vs : List VariableId} (hv : v ∉ vs)
    (ws : List VariableId) :
    ws.countP (· ∈ v :: vs) = ws.count v + ws.countP (· ∈ vs) := by
  induction ws with
  | nil => rfl
  | cons w ws ih =>
    simp only [List.countP_cons, List.count_cons, ih]
    by_cases e : w = v
    · subst e; simp [hv]; omega
    · simp [e]; omega

/-- An operator is listed as a reader as often as it reads one of the outputs. -/
theorem total_readers (h : g.Linked) {o c : OperatorId} {op reader : Operator α}
    (ho : g.operatorAt? o = some op) (hc : g.operatorAt? c = some reader) :
    Sweep.total (Sweep.readers g op) c = reader.inputs.countP (· ∈ op.outputs) := by
  have sum (vs : List VariableId) (live : ∀ v ∈ vs, g.outline.Live v) (nodup : vs.Nodup) :
      Sweep.total (vs.flatMap fun v => (g.consumers v).map fun p => (p, g.uses p v)) c =
        reader.inputs.countP (· ∈ vs) := by
    induction vs with
    | nil => simp [Sweep.total]
    | cons v vs ih =>
      obtain ⟨hv, rest⟩ := List.nodup_cons.1 nodup
      obtain ⟨x, hx⟩ := live_iff.1 (live v List.mem_cons_self)
      rw [List.flatMap_cons, Sweep.total_append, countP_mem_cons hv, consumers_of hx,
        total_consumers h hc hx, ih (fun w hw => live w (List.mem_cons_of_mem v hw)) rest]
  exact sum op.outputs (fun v hv => h.output_live ⟨op, ho, hv⟩) (h.outputs_nodup ho)

/-- Emitting an operator takes its values off what its readers wait for. -/
theorem need_cons (h : g.Linked) {o c : OperatorId} {op reader : Operator α}
    (ho : g.operatorAt? o = some op) (hc : g.operatorAt? c = some reader)
    {emitted : List OperatorId} (fresh : o ∉ emitted) :
    g.need emitted c = g.need (o :: emitted) c + Sweep.total (Sweep.readers g op) c := by
  have settled (v : VariableId) :
      g.awaits emitted v = true ↔ g.awaits (o :: emitted) v = true ∨ v ∈ op.outputs := by
    rw [awaits_iff h, awaits_iff h]
    constructor
    · rintro ⟨p, hw, hp⟩
      by_cases e : p = o
      · subst e
        obtain ⟨op', hop', hv⟩ := hw
        cases ho.symm.trans hop'
        exact .inr hv
      · exact .inl ⟨p, hw, fun hm => (List.mem_cons.1 hm).elim e hp⟩
    · rintro (⟨p, hw, hp⟩ | hv)
      · exact ⟨p, hw, fun hm => hp (List.mem_cons_of_mem o hm)⟩
      · exact ⟨o, ⟨op, ho, hv⟩, fresh⟩
  have apart (v : VariableId) (hv : v ∈ op.outputs) : g.awaits (o :: emitted) v = false := by
    cases e : g.awaits (o :: emitted) v with
    | false => rfl
    | true =>
      obtain ⟨p, hw, hp⟩ := (awaits_iff h).1 e
      exact absurd (h.writer_unique hw ⟨op, ho, hv⟩ ▸ List.mem_cons_self) hp
  rw [total_readers h ho hc, need_of hc, need_of hc]
  induction reader.inputs with
  | nil => rfl
  | cons v vs ih =>
    simp only [List.countP_cons, ih]
    by_cases hv : v ∈ op.outputs
    · have waits : g.awaits emitted v = true := (settled v).2 (.inr hv)
      simp [hv, waits, apart v hv]
      omega
    · have same : g.awaits emitted v = g.awaits (o :: emitted) v := by
        rw [Bool.eq_iff_iff, settled v]
        exact or_iff_left hv
      simp [hv, same]
      omega

end Graph

/-- The operators emitted are live, none is emitted twice, and each comes after those that it
reads from. What is left waits for what is not emitted. -/
structure Sweep.Correct (g : Graph α) (s : Sweep) : Prop where
  waits : Waits g.operatorIds (g.need s.emitted) s
  nodup : s.emitted.Nodup
  live : ∀ o ∈ s.emitted, ∃ op, g.operatorAt? o = some op
  closed : ∀ later o earlier, s.emitted = later ++ o :: earlier →
    ∀ a, g.outline.Precedes a o → a ∈ earlier

/-- An order of all live operators, each after those that it reads from. -/
structure Outline.Sorted (O : Outline α) (order : List OperatorId) : Prop where
  nodup : order.Nodup
  mem_iff : ∀ o, o ∈ order ↔ ∃ op, O.operators o = some op
  closed : ∀ earlier o later, order = earlier ++ o :: later →
    ∀ a, O.Precedes a o → a ∈ earlier

open TensorGraph.Graph

namespace Sweep

variable {g : Graph α} {s : Sweep}

theorem Correct.closed_under (h : Correct g s) {a o : OperatorId} (ho : o ∈ s.emitted)
    (precedes : g.outline.Precedes a o) : a ∈ s.emitted := by
  obtain ⟨later, earlier, e⟩ := List.append_of_mem ho
  rw [e]
  exact List.mem_append_right _ (List.mem_cons_of_mem o (h.closed later o earlier e a precedes))

theorem correct_start (h : g.Linked) : Correct g (start g) where
  waits := by
    have pending : (start g).pending = g.operatorIds.map fun o => (o, g.need [] o) := by
      simp only [start, Graph.operatorIds, List.map_map]
      refine List.map_congr_left fun op hop => ?_
      have live := (mem_liveOperators h).1 hop
      simp only [Function.comp_apply, need_of live]
      congr 2
      funext v
      unfold awaits
      cases g.producer? v <;> rfl
    have ready : (start g).ready = g.operatorIds.filter fun o => g.need [] o = 0 := by
      show ((start g).pending.filter fun entry => entry.2 = 0).map Prod.fst = _
      rw [pending, List.filter_map, List.map_map]
      exact List.map_id _
    refine ⟨pending, fun o => ?_, ?_⟩
    · rw [ready, List.mem_filter, decide_eq_true_iff]
      constructor
      · rintro ⟨live, zero⟩
        exact ⟨live, List.not_mem_nil, zero⟩
      · rintro ⟨live, _, zero⟩
        exact ⟨live, zero⟩
    · rw [ready]
      exact (operatorIds_ascending h).filter _
  nodup := List.nodup_nil
  live := fun _ ho => nomatch ho
  closed := fun later o earlier e => by simp [start] at e

/-- The readers of the next operator are not emitted and wait for all that it tells them of. -/
theorem Correct.told (h : g.Linked) (inv : Correct g s) {o : OperatorId} {rest : List OperatorId}
    (ready : s.ready = o :: rest) {op : Operator α} (ho : g.operatorAt? o = some op) :
    (∀ c uses, (c, uses) ∈ readers g op → c ∈ g.operatorIds ∧ c ∉ o :: s.emitted ∧ 0 < uses) ∧
      ∀ c, total (readers g op) c ≤ g.need s.emitted c := by
  obtain ⟨_, fresh, none_left⟩ := (inv.waits.mem_ready o).1 (ready ▸ List.mem_cons_self)
  have before := (need_eq_zero h ho).1 none_left
  have waiting (c : OperatorId) (uses : Nat) (hm : (c, uses) ∈ readers g op) :
      c ∈ g.operatorIds ∧ c ∉ o :: s.emitted ∧ 0 < uses := by
    obtain ⟨v, hv, hc⟩ := List.mem_flatMap.1 hm
    obtain ⟨c', hc', e⟩ := List.mem_map.1 hc
    cases e
    obtain ⟨x, hx⟩ := live_iff.1 (h.output_live ⟨op, ho, hv⟩)
    rw [consumers_of hx] at hc'
    obtain ⟨reader, hr, reads⟩ := (h.mem_consumers hx c).1 hc'
    have precedes : g.outline.Precedes o c := ⟨v, ⟨op, ho, hv⟩, reader, hr, reads⟩
    refine ⟨(mem_operatorIds h).2 ⟨reader, hr⟩, fun hm => ?_, ?_⟩
    · rcases List.mem_cons.1 hm with rfl | hm
      · exact fresh (before c precedes)
      · exact fresh (inv.closed_under hm precedes)
    · rw [uses_of hr]
      exact List.count_pos_iff.2 reads
  refine ⟨waiting, fun c => ?_⟩
  cases hc : g.operatorAt? c with
  | none =>
    have unread : total (readers g op) c = 0 := total_eq_zero fun uses hm => by
      obtain ⟨_, hp⟩ := (mem_operatorIds h).1 (waiting c uses hm).1
      rw [hc] at hp
      cases hp
    omega
  | some reader =>
    have := need_cons h ho hc fresh
    omega

/-- Taken off the ready operators, `o` is emitted, and nobody has been told yet. -/
theorem Correct.taken (inv : Correct g s) {o : OperatorId} {rest : List OperatorId}
    (ready : s.ready = o :: rest) :
    Waits g.operatorIds (g.need s.emitted) { s with ready := rest, emitted := o :: s.emitted } := by
  have sorted : Ascending (o :: rest) := ready ▸ inv.waits.ascending
  refine ⟨inv.waits.pending_eq, fun p => ?_, (List.pairwise_cons.1 sorted).2⟩
  have still := inv.waits.mem_ready p
  rw [ready] at still
  show p ∈ rest ↔ p ∈ g.operatorIds ∧ p ∉ o :: s.emitted ∧ g.need s.emitted p = 0
  by_cases e : p = o
  · subst e
    have notRest : p ∉ rest := fun hp =>
      Nat.lt_irrefl _ ((List.pairwise_cons.1 sorted).1 p hp)
    simp [notRest]
  · simpa [e] using still

/-- Emitting an operator keeps the invariant. -/
theorem Correct.emit (h : g.Linked) (inv : Correct g s) {o : OperatorId} {rest : List OperatorId}
    (ready : s.ready = o :: rest) :
    ∃ s', s.emit g = some s' ∧ Correct g s' ∧ s'.emitted = o :: s.emitted := by
  obtain ⟨live, fresh, none_left⟩ := (inv.waits.mem_ready o).1 (ready ▸ List.mem_cons_self)
  obtain ⟨op, ho⟩ := (mem_operatorIds h).1 live
  have before := (need_eq_zero h ho).1 none_left
  obtain ⟨told, enough⟩ := inv.told h ready ho
  obtain ⟨waits, same, _⟩ := (inv.taken ready).settleAll told enough
  refine ⟨_, ?_, ⟨?_, ?_, ?_, ?_⟩, same⟩
  · simp only [Sweep.emit, ready, ho]
  · rw [same]
    refine waits.congr fun c hc => ?_
    obtain ⟨reader, hr⟩ := (mem_operatorIds h).1 hc
    have := need_cons h ho hr fresh
    show g.need s.emitted c - total (readers g op) c = g.need (o :: s.emitted) c
    omega
  · rw [same]
    exact List.nodup_cons.2 ⟨fresh, inv.nodup⟩
  · rw [same]
    intro p hp
    rcases List.mem_cons.1 hp with rfl | hp
    · exact ⟨op, ho⟩
    · exact inv.live p hp
  · rw [same]
    intro later p earlier e a precedes
    cases later with
    | nil =>
      cases e
      exact before a precedes
    | cons q later =>
      exact inv.closed later p earlier (List.cons.inj e).2 a precedes

/-- As long as one of some operators that are ranked, and read from each other only, is not
emitted, one of least rank among those is ready. -/
theorem Correct.ready_of_ranked (h : g.Linked) (inv : Correct g s) {rank : OperatorId → Nat}
    (among : OperatorId → Prop)
    (ranked : ∀ a b, g.outline.Precedes a b → among b → among a ∧ rank a < rank b)
    {o : OperatorId} (ho : among o) (live : o ∈ g.operatorIds) (fresh : o ∉ s.emitted) :
    s.ready ≠ [] := by
  induction e : rank o using Nat.strongRecOn generalizing o with
  | ind n ih =>
    subst e
    obtain ⟨op, live'⟩ := (mem_operatorIds h).1 live
    by_cases done : ∀ a, g.outline.Precedes a o → a ∈ s.emitted
    · have ready := (inv.waits.mem_ready o).2 ⟨live, fresh, (need_eq_zero h live').2 done⟩
      exact List.ne_nil_of_mem ready
    · obtain ⟨a, left⟩ := Classical.not_forall.1 done
      obtain ⟨precedes, fresh'⟩ := Classical.not_imp.1 left
      obtain ⟨v, ⟨op', before, _⟩, _⟩ := id precedes
      obtain ⟨ha, lt⟩ := ranked a o precedes ho
      exact ih (rank a) lt ha ((mem_operatorIds h).2 ⟨op', before⟩) fresh' rfl

theorem Correct.run (h : g.Linked) (fuel : Nat) (inv : Correct g s) :
    Correct g (run g fuel s) ∧ ((run g fuel s).ready = [] ∨
      (run g fuel s).emitted.length = s.emitted.length + fuel) := by
  induction fuel generalizing s with
  | zero => exact ⟨inv, .inr rfl⟩
  | succ fuel ih =>
    cases ready : s.ready with
    | nil =>
      have stop : s.emit g = none := by simp only [Sweep.emit, ready]
      have same : Sweep.run g (fuel + 1) s = s := by simp only [Sweep.run, stop]
      rw [same]
      exact ⟨inv, .inl ready⟩
    | cons o rest =>
      obtain ⟨s', emit, inv', emitted⟩ := inv.emit h ready
      have step : Sweep.run g (fuel + 1) s = Sweep.run g fuel s' := by simp only [Sweep.run, emit]
      rw [step]
      refine ⟨(ih inv').1, (ih inv').2.imp_right fun length => ?_⟩
      rw [length, emitted, List.length_cons]
      omega

end Sweep

section

variable {g : Graph α}

theorem operatorIds_nodup (h : g.Linked) : g.operatorIds.Nodup :=
  (operatorIds_ascending h).imp fun lt e => Nat.ne_of_lt lt (congrArg _ e)

theorem operatorIds_length (g : Graph α) : g.operatorIds.length = g.operatorCount :=
  List.length_map _

/-- The state in which the ordering ends. -/
def Graph.lastSweep (g : Graph α) : Sweep := Sweep.run g g.operatorCount (.start g)

/-- Operators are emitted once each, so as many as there are is all of them. -/
theorem Sweep.Correct.perm {s : Sweep} (h : g.Linked) (inv : s.Correct g)
    (all : g.operatorIds.length ≤ s.emitted.length) : s.emitted.Perm g.operatorIds :=
  have sub : s.emitted ⊆ g.operatorIds := fun o ho => (mem_operatorIds h).2 (inv.live o ho)
  (List.subperm_of_subset inv.nodup sub).perm_of_length_le all

/-- The run goes on until no operator is ready. -/
theorem lastSweep_correct (h : g.Linked) : g.lastSweep.Correct g ∧ g.lastSweep.ready = [] := by
  obtain ⟨inv, done⟩ := (Sweep.correct_start h).run h g.operatorCount
  refine ⟨inv, done.elim id fun enough => ?_⟩
  have all : (Sweep.run g g.operatorCount (.start g)).emitted.Perm g.operatorIds := by
    refine inv.perm h (Nat.le_of_eq ?_)
    rw [enough, operatorIds_length]
    exact (Nat.zero_add _).symm
  refine List.eq_nil_iff_forall_not_mem.2 fun o ho => ?_
  obtain ⟨live, fresh, _⟩ := (inv.waits.mem_ready o).1 ho
  exact fresh (all.mem_iff.2 live)

/-- There is an order exactly when all operators are emitted. -/
theorem topologicalOrder_ok_iff (h : g.Linked) {order : List OperatorId} :
    g.topologicalOrder = .ok order ↔
      g.lastSweep.emitted.Perm g.operatorIds ∧ order = g.lastSweep.emitted.reverse := by
  obtain ⟨inv, _⟩ := lastSweep_correct h
  have complete : g.lastSweep.emitted.length = g.lastSweep.pending.length ↔
      g.lastSweep.emitted.Perm g.operatorIds := by
    rw [inv.waits.pending_eq, List.length_map]
    exact ⟨fun e => inv.perm h (Nat.le_of_eq e.symm), List.Perm.length_eq⟩
  rw [← complete]
  show (if g.lastSweep.emitted.length = g.lastSweep.pending.length then _ else _) = _ ↔ _
  split
  · next e =>
    refine ⟨fun found => ⟨e, (Except.ok.inj found).symm⟩, fun found => ?_⟩
    rw [found.2]
    rfl
  · next ne => exact ⟨(nomatch ·), fun found => absurd found.1 ne⟩

/-- An order, if one is found, is sorted. -/
theorem topologicalOrder_sorted (h : g.Linked) {order : List OperatorId}
    (found : g.topologicalOrder = .ok order) : g.outline.Sorted order := by
  obtain ⟨inv, _⟩ := lastSweep_correct h
  obtain ⟨perm, rfl⟩ := (topologicalOrder_ok_iff h).1 found
  refine ⟨List.nodup_reverse.2 inv.nodup, fun o => ?_, fun earlier o later e a precedes => ?_⟩
  · rw [List.mem_reverse, perm.mem_iff, mem_operatorIds h]
    rfl
  · have e' : g.lastSweep.emitted = later.reverse ++ o :: earlier.reverse := by
      rw [← List.reverse_reverse g.lastSweep.emitted, e]
      simp
    exact List.mem_reverse.1 (inv.closed _ o _ e' a precedes)

/-- A ranked graph has an order. -/
theorem topologicalOrder_of_ranked (h : g.Linked) {rank : OperatorId → Nat}
    (ranked : g.outline.Ranked rank) : ∃ order, g.topologicalOrder = .ok order := by
  obtain ⟨inv, done⟩ := lastSweep_correct h
  have all_ranked (a b : OperatorId) (precedes : g.outline.Precedes a b) :
      True → True ∧ rank a < rank b := fun _ => ⟨trivial, ranked a b precedes⟩
  have all : g.operatorIds ⊆ g.lastSweep.emitted := fun o ho => by
    by_contra fresh
    exact inv.ready_of_ranked h (fun _ => True) all_ranked trivial ho fresh done
  have perm := inv.perm h (List.subperm_of_subset (operatorIds_nodup h) all).length_le
  exact ⟨_, (topologicalOrder_ok_iff h).2 ⟨perm, rfl⟩⟩

/-- The places in a sorted order are ranks. -/
theorem Outline.Sorted.ranked {O : Outline α} {order : List OperatorId} (h : O.Sorted order) :
    O.Ranked (order.idxOf ·) := by
  intro a b precedes
  obtain ⟨v, _, op, hb, _⟩ := id precedes
  obtain ⟨earlier, later, e⟩ := List.append_of_mem ((h.mem_iff b).2 ⟨op, hb⟩)
  have ha := h.closed earlier b later e a precedes
  have nodup := e ▸ h.nodup
  have hb' : b ∉ earlier := fun hb => (List.nodup_append.1 nodup).2.2 b hb b List.mem_cons_self rfl
  show order.idxOf a < order.idxOf b
  rw [e, List.idxOf_append_of_mem ha, List.idxOf_append_of_notMem hb']
  have := List.idxOf_lt_length_iff.2 ha
  omega

/-- Whatever reads from an operator of a sorted order comes after it. -/
theorem Outline.Sorted.later {O : Outline α} {order earlier rest : List OperatorId}
    (h : O.Sorted order) {o c : OperatorId} (e : order = earlier ++ o :: rest)
    (precedes : O.Precedes o c) : c ∈ rest := by
  have rising : order.idxOf o < order.idxOf c := h.ranked o c precedes
  obtain ⟨_, _, op, live, _⟩ := id precedes
  have mem : c ∈ earlier ++ o :: rest := e ▸ (h.mem_iff c).2 ⟨op, live⟩
  have fresh : o ∉ earlier := fun ho =>
    (List.nodup_append.1 (e ▸ h.nodup)).2.2 o ho o List.mem_cons_self rfl
  rcases List.mem_append.1 mem with early | mem
  · have place : order.idxOf o = earlier.length := by
      rw [e, List.idxOf_append_of_notMem fresh, List.idxOf_cons_self, Nat.add_zero]
    have before : order.idxOf c < earlier.length := by
      rw [e, List.idxOf_append_of_mem early]
      exact List.idxOf_lt_length_iff.2 early
    omega
  · rcases List.mem_cons.1 mem with rfl | mem
    · exact absurd rising (Nat.lt_irrefl _)
    · exact mem

end

end TensorGraph
