import TensorGraph.Proofs.Graph.Cycle
import TensorGraph.Proofs.Graph.Reachable

/-!
# TensorGraph.Proofs.Graph.LeastOrder

Which of the orders the ordering finds, and what it says when there is none.

* `Sweep.Greedy`: of the operators that could come next, each one emitted was inserted first.
* `Sweep.run?`: a run that has no result if an operator is told of more values than it waits for.
* `Sorted.least`: a greedy order is the lexicographically least one.
* `topologicalOrder_stalled`: the error names the earliest inserted operator that a cycle holds up.
* `topologicalOrder_complete`: all of this for the graphs that edits make.
-/

namespace TensorGraph

open Relation (TransGen)
open TensorGraph.Graph

variable {α : Type} {g : Graph α}

/-! ## Runs -/

namespace Sweep

/-- Of the operators that could come next, each one emitted was inserted first. -/
def Greedy (g : Graph α) (s : Sweep) : Prop :=
  ∀ later o earlier, s.emitted = later ++ o :: earlier → ∀ p ∈ g.operatorIds, p ∉ earlier →
    (∀ a, g.outline.Precedes a p → a ∈ earlier) → o.index ≤ p.index

/-- `run`, without a result where `settle?` has none. -/
def run? (g : Graph α) : Nat → Sweep → Option Sweep
  | 0, s => some s
  | fuel + 1, s =>
    match s.ready with
    | [] => some s
    | o :: rest =>
      let s := { s with ready := rest, emitted := o :: s.emitted }
      match g.operatorAt? o with
      | none => run? g fuel s
      | some op =>
        ((readers g op).foldlM (fun (s : Sweep) (c, uses) => s.settle? c uses) s).bind (run? g fuel)

variable {s s' : Sweep}

theorem Greedy.emit (h : g.Linked) (inv : Correct g s) (greedy : Greedy g s) {o : OperatorId}
    {rest : List OperatorId} (ready : s.ready = o :: rest)
    (emitted : s'.emitted = o :: s.emitted) : Greedy g s' := by
  rw [Greedy, emitted]
  intro later q earlier e p live fresh before
  cases later with
  | nil =>
    obtain ⟨rfl, rfl⟩ : o = q ∧ s.emitted = earlier := List.cons.inj e
    -- `p` is ready as well, and ready operators are in ascending order.
    obtain ⟨op, hp⟩ := (mem_operatorIds h).1 live
    have ready' := (inv.waits.mem_ready p).2 ⟨live, fresh, (need_eq_zero h hp).2 before⟩
    have sorted : Ascending (o :: rest) := ready ▸ inv.waits.ascending
    rw [ready] at ready'
    rcases List.mem_cons.1 ready' with rfl | hp
    · exact Nat.le_refl _
    · exact Nat.le_of_lt ((List.pairwise_cons.1 sorted).1 p hp)
  | cons r later => exact greedy later q earlier (List.cons.inj e).2 p live fresh before

theorem Greedy.run (h : g.Linked) (fuel : Nat) (inv : Correct g s) (greedy : Greedy g s) :
    Greedy g (run g fuel s) := by
  induction fuel generalizing s with
  | zero => exact greedy
  | succ fuel ih =>
    cases ready : s.ready with
    | nil => simpa only [Sweep.run, Sweep.emit, ready] using greedy
    | cons o rest =>
      obtain ⟨s', emit, inv', emitted⟩ := inv.emit h ready
      simp only [Sweep.run, emit]
      exact ih inv' (greedy.emit h inv ready emitted)

/-- No operator is ever told of more values than it waits for. -/
theorem Correct.run? (h : g.Linked) (fuel : Nat) (inv : Correct g s) :
    run? g fuel s = some (Sweep.run g fuel s) := by
  induction fuel generalizing s with
  | zero => rfl
  | succ fuel ih =>
    cases ready : s.ready with
    | nil => simp only [Sweep.run?, Sweep.run, Sweep.emit, ready]
    | cons o rest =>
      obtain ⟨live, _⟩ := (inv.waits.mem_ready o).1 (ready ▸ List.mem_cons_self)
      obtain ⟨op, ho⟩ := (mem_operatorIds h).1 live
      obtain ⟨told, enough⟩ := inv.told h ready ho
      obtain ⟨_, _, checked⟩ := (inv.taken ready).settleAll told enough
      obtain ⟨s', emit, inv', _⟩ := inv.emit h ready
      have same := emit
      simp only [Sweep.emit, ready, ho, Option.some.injEq] at same
      simp only [Sweep.run?, ready, ho, checked, Option.bind_some, Sweep.run, emit, same]
      exact ih inv'

end Sweep

/-! ## The least order -/

/-- Of two sorted orders the greedy one comes first: where they part, it has the operator that was
inserted earlier. -/
theorem Outline.Sorted.least {O : Outline α} {order other : List OperatorId}
    (sorted : O.Sorted order) (sorted' : O.Sorted other)
    (greedy : ∀ earlier o later, order = earlier ++ o :: later → ∀ p ∈ order, p ∉ earlier →
      (∀ a, O.Precedes a p → a ∈ earlier) → o.index ≤ p.index) :
    other = order ∨ List.Lex (fun a b => a.index < b.index) order other := by
  have parts (rest : List OperatorId) : ∀ common rest', order = common ++ rest →
      other = common ++ rest' →
        rest' = rest ∨ List.Lex (fun a b => a.index < b.index) rest rest' := by
    induction rest with
    | nil =>
      intro common rest' e _
      cases rest' with
      | nil => exact .inl rfl
      | cons p rest' => exact .inr .nil
    | cons o rest ih =>
      intro common rest' e e'
      cases rest' with
      | nil =>
        -- `o` is in the other order too, and so in what both begin with.
        have mem : o ∈ other := (sorted'.mem_iff o).2 ((sorted.mem_iff o).1 (by simp [e]))
        have nodup := e ▸ sorted.nodup
        refine absurd rfl ((List.nodup_append.1 nodup).2.2 o ?_ o List.mem_cons_self)
        simpa [e'] using mem
      | cons p rest' =>
        have mem : p ∈ order := (sorted.mem_iff p).2 ((sorted'.mem_iff p).1 (by simp [e']))
        have nodup := e' ▸ sorted'.nodup
        have fresh : p ∉ common := fun hp =>
          (List.nodup_append.1 nodup).2.2 p hp p List.mem_cons_self rfl
        have le := greedy common o rest e p mem fresh (sorted'.closed common p rest' e')
        rcases Nat.lt_or_eq_of_le le with lt | same
        · exact .inr (.rel lt)
        · have eq : o = p := by cases o; cases p; cases same; rfl
          subst eq
          refine (ih (common ++ [o]) rest' (by simp [e]) (by simp [e'])).imp ?_ List.Lex.cons
          exact congrArg (o :: ·)
  exact parts order [] other rfl rfl

theorem topologicalOrder_least (h : g.Linked) {order : List OperatorId}
    (found : g.topologicalOrder = .ok order) {other : List OperatorId}
    (sorted : g.outline.Sorted other) :
    other = order ∨ List.Lex (fun a b => a.index < b.index) order other := by
  have start : (Sweep.start g).Correct g := Sweep.correct_start h
  have greedy : Sweep.Greedy g g.lastSweep :=
    Sweep.Greedy.run h _ start fun later o earlier e => by simp [Sweep.start] at e
  refine (topologicalOrder_sorted h found).least sorted fun earlier o later e p hp fresh before =>
    ?_
  obtain ⟨perm, rfl⟩ := (topologicalOrder_ok_iff h).1 found
  have e' : g.lastSweep.emitted = later.reverse ++ o :: earlier.reverse := by
    rw [← List.reverse_reverse g.lastSweep.emitted, e]
    simp
  refine greedy _ o _ e' p (perm.mem_iff.1 (List.mem_reverse.1 hp)) ?_ fun a precedes => ?_
  · rwa [List.mem_reverse]
  · exact List.mem_reverse.2 (before a precedes)

/-! ## No order -/

/-- In the end an operator still waits exactly if it is stalled. -/
theorem need_pos_iff (h : g.Linked) {o : OperatorId} (live : o ∈ g.operatorIds) :
    0 < g.need g.lastSweep.emitted o ↔ g.outline.Stalled o := by
  obtain ⟨inv, done⟩ := lastSweep_correct h
  have emitted := inv.emitted_iff h done live
  rw [Nat.pos_iff_ne_zero, ← not_iff_not, Classical.not_not, ← emitted]
  constructor
  · intro zero
    by_contra fresh
    have ready := (inv.waits.mem_ready o).2 ⟨live, fresh, zero⟩
    rw [done] at ready
    cases ready
  · intro ho
    obtain ⟨op, hop⟩ := (mem_operatorIds h).1 live
    exact (need_eq_zero h hop).2 fun a precedes => inv.closed_under ho precedes

/-- An error names the earliest inserted operator that a cycle holds up. -/
theorem topologicalOrder_stalled (h : g.Linked) {e : GraphError}
    (failed : g.topologicalOrder = .error e) : ∃ o op, g.operatorAt? o = some op ∧
      e = .invalidGraph op.place .cycle ∧ g.outline.Stalled o ∧
        ∀ p, g.outline.Stalled p → o.index ≤ p.index := by
  obtain ⟨inv, done⟩ := lastSweep_correct h
  have incomplete : ¬g.operatorIds ⊆ g.lastSweep.emitted := fun all => by
    have perm := inv.perm h (List.subperm_of_subset (operatorIds_nodup h) all).length_le
    rw [(topologicalOrder_ok_iff h).2 ⟨perm, rfl⟩] at failed
    cases failed
  have stuck : g.lastSweep.stuck? =
      g.operatorIds.find? fun o => 0 < g.need g.lastSweep.emitted o := by
    rw [Sweep.stuck?, inv.waits.pending_eq, List.find?_map, Option.map_map]
    exact Option.map_id'
  cases found : g.operatorIds.find? fun o => 0 < g.need g.lastSweep.emitted o with
  | none =>
    rw [List.find?_eq_none] at found
    refine absurd (fun o live => ?_) incomplete
    rw [inv.emitted_iff h done live, ← need_pos_iff h live]
    simpa using found o live
  | some o =>
    obtain ⟨waits, before, after, e', first⟩ := List.find?_eq_some_iff_append.1 found
    have live : o ∈ g.operatorIds := by simp [e']
    obtain ⟨op, ho⟩ := (mem_operatorIds h).1 live
    refine ⟨o, op, ho, ?_, (need_pos_iff h live).1 (by simpa using waits), fun p stalled => ?_⟩
    · simp only [topologicalOrder] at failed
      split at failed
      · cases failed
      · rw [← Except.error.inj failed]
        have named := stuck.trans found
        simp only [lastSweep] at named
        simp only [named, placeOf, ho]
    · have hp := (mem_operatorIds h).2 stalled.live
      have ascending := operatorIds_ascending h
      rw [e'] at hp ascending
      rcases List.mem_append.1 hp with hp' | hp'
      · have waits' := (need_pos_iff h (e' ▸ hp)).2 stalled
        have settled := first p hp'
        simp [waits'] at settled
      · rcases List.mem_cons.1 hp' with rfl | hp'
        · exact Nat.le_refl _
        · have tail := (List.pairwise_append.1 ascending).2.1
          exact Nat.le_of_lt ((List.pairwise_cons.1 tail).1 p hp')

/-- Where a check finds a cycle, ordering fails with the same error. -/
theorem topologicalOrder_of_cycle (h : g.Linked) {place : Place}
    (found : g.validate = .error (.invalidGraph place .cycle)) :
    g.topologicalOrder = .error (.invalidGraph place .cycle) := by
  have checked := validateOrder_of_cycle h found
  unfold validateOrder at checked
  split at checked
  · next cyclic =>
    cases ordered : g.topologicalOrder with
    | error e =>
      rw [ordered] at checked
      cases checked
      rfl
    | ok order =>
      have ranked := (topologicalOrder_sorted h ordered).ranked
      rw [(isCyclic_iff h).2 ⟨_, ranked⟩] at cyclic
      cases cyclic
  · cases checked

/-- A reachable graph has an order exactly when no operator waits for itself. The order lists the
live operators, each after those that it reads from, and is lexicographically least among all that
do. Where there is none, the error names the earliest inserted operator that is on a cycle or
depends on one. The run that finds out ends with nothing ready, and never tells an operator of more
values than it waits for. A digraph of dependencies counts as cyclic if a path in it leads back to
its start, and a check that finds it so gives the error of the ordering, never one of its own. -/
theorem Graph.topologicalOrder_complete (h : g.Reachable) :
    ((∃ order, g.topologicalOrder = .ok order) ↔ ∀ o, ¬TransGen g.outline.Precedes o o) ∧
    (∀ order, g.topologicalOrder = .ok order → order.Perm g.operatorIds ∧
      g.outline.Sorted order ∧ ∀ other, g.outline.Sorted other →
        other = order ∨ List.Lex (fun a b => a.index < b.index) order other) ∧
    (∀ e, g.topologicalOrder = .error e → ∃ o op, g.operatorAt? o = some op ∧
      e = .invalidGraph (.labelled o op.kind.name) .cycle ∧ g.outline.Stalled o ∧
        ∀ p, g.outline.Stalled p → o.index ≤ p.index) ∧
    (Sweep.run g g.operatorCount (.start g)).ready = [] ∧
    (∀ fuel, Sweep.run? g fuel (.start g) = some (Sweep.run g fuel (.start g))) ∧
    (g.dependencies.isCyclic = true ↔ ∃ n, TransGen g.dependencies.Edge n n) ∧
    (∀ place, g.validate = .error (.invalidGraph place .cycle) →
      g.topologicalOrder = .error (.invalidGraph place .cycle)) ∧
    g.validate ≠ .error (.invalidGraph (.named "graph") .cycle) := by
  have linked := h.linked
  refine ⟨?_, fun order found => ?_, fun e failed => ?_, (lastSweep_correct linked).2,
    fun fuel => (Sweep.correct_start linked).run? linked fuel,
    Digraph.isCyclic_iff_path (dependencies_within linked),
    fun place found => topologicalOrder_of_cycle linked found, fun found => ?_⟩
  · constructor
    · rintro ⟨order, found⟩
      exact (ranked_iff_acyclic linked).1 ⟨_, (topologicalOrder_sorted linked found).ranked⟩
    · intro acyclic
      obtain ⟨rank, ranked⟩ := (ranked_iff_acyclic linked).2 acyclic
      exact topologicalOrder_of_ranked linked ranked
  · obtain ⟨perm, e⟩ := (topologicalOrder_ok_iff linked).1 found
    have sorted := topologicalOrder_sorted linked found
    refine ⟨?_, sorted, fun other sorted' => topologicalOrder_least linked found sorted'⟩
    rw [e]
    exact (List.reverse_perm _).trans perm
  · obtain ⟨o, op, ho, rfl, stalled, first⟩ := topologicalOrder_stalled linked failed
    refine ⟨o, op, ho, ?_, stalled, first⟩
    rw [Operator.place, linked.operator_id ho]
  · obtain ⟨o, op, _, e, _⟩ :=
      topologicalOrder_stalled linked (topologicalOrder_of_cycle linked found)
    cases e

/-- Two operators that read from each other, an earlier one that reads from one of them, and a
first one that reads an input only. -/
def Graph.heldUp : Graph Nat :=
  afterCalls .empty
    [.addVariable "x" [2], .addVariable "a" [2], .addVariable "b" [2], .addVariable "c" [2],
      .addVariable "y" [2], .addOperator (.activation .relu) [⟨0⟩] [⟨1⟩],
      .addOperator (.elementwiseAdd none) [⟨2⟩, ⟨1⟩, ⟨2⟩] [⟨4⟩],
      .addOperator (.activation .tanh) [⟨3⟩] [⟨2⟩], .addOperator (.activation .tanh) [⟨2⟩] [⟨3⟩],
      .designateInputs [⟨0⟩], .designateOutputs [⟨4⟩]]

theorem Graph.topologicalOrder_complete_heldUp : heldUp.Reachable ∧
    heldUp.topologicalOrder = .error (.invalidGraph (.labelled ⟨1⟩ "elementwise_add") .cycle) ∧
    heldUp.validate = .error (.invalidGraph (.labelled ⟨1⟩ "elementwise_add") .cycle) ∧
    (∃ o, TransGen heldUp.outline.Precedes o o) ∧
    ∀ p, heldUp.outline.Stalled p → 1 ≤ p.index := by
  have reachable : heldUp.Reachable := Reachable.empty.afterCalls _
  have failed : heldUp.topologicalOrder =
      .error (.invalidGraph (.labelled ⟨1⟩ "elementwise_add") .cycle) := by decide
  obtain ⟨ordered, _, error, _⟩ := topologicalOrder_complete reachable
  refine ⟨reachable, failed, by decide, ?_, ?_⟩
  · by_contra acyclic
    obtain ⟨order, found⟩ := ordered.2 (not_exists.1 acyclic)
    rw [failed] at found
    cases found
  · obtain ⟨o, op, _, e, _, first⟩ := error _ failed
    obtain ⟨place, _⟩ := GraphError.invalidGraph.inj e
    obtain ⟨rfl, _⟩ := Place.labelled.inj place
    exact first

end TensorGraph
