import Mathlib.Data.List.Induction
import TensorGraph.Pass.DeadCode
import TensorGraph.Proofs.Edit.Operators
import TensorGraph.Proofs.Graph.Cycle
import TensorGraph.Proofs.Pass.Sweep

/-!
# TensorGraph.Proofs.Pass.DeadCode

Which operators are dead, and what is left without them.

* `Outline.Contributes`: an output of the graph depends on the operator.
* `deadOperators_eq`: one pass back over a sorted order finds exactly the others.
* `removeDead_yields`: what is left of a graph without cycles.
* `removeDead_settled`, `removeDead_idle`: nothing happens where every operator contributes and
  every variable is needed, so nothing happens to a tidy graph, and nothing happens again.
-/

namespace TensorGraph

open Relation (ReflTransGen)

open TensorGraph.Graph Edit Pass

variable {α : Type} {g : Graph α}

/-! ## Contributions -/

namespace Outline

variable {O : Outline α}

/-- Following dependencies leads from `o` to an operator that writes an output of the graph. -/
def Contributes (O : Outline α) (o : OperatorId) : Prop :=
  ∃ c v, ReflTransGen O.Precedes o c ∧ O.Writes c v ∧ v ∈ O.outputs

/-- An operator contributes when it writes an output or an operand of one that contributes. -/
theorem contributes_iff {o : OperatorId} : O.Contributes o ↔
    ∃ v, O.Writes o v ∧ (v ∈ O.outputs ∨ ∃ c, O.Contributes c ∧ O.Reads c v) := by
  constructor
  · rintro ⟨c, v, path, written, output⟩
    rcases ReflTransGen.cases_head path with rfl | ⟨b, ⟨u, write, read⟩, path⟩
    · exact ⟨v, written, .inl output⟩
    · exact ⟨u, write, .inr ⟨b, ⟨c, v, path, written, output⟩, read⟩⟩
  · rintro ⟨v, write, output | ⟨c, ⟨d, u, path, written, output⟩, read⟩⟩
    · exact ⟨o, v, .refl, write, output⟩
    · exact ⟨d, u, path.head ⟨v, write, read⟩, written, output⟩

theorem Contributes.of_precedes {o c : OperatorId} (h : O.Contributes c)
    (precedes : O.Precedes o c) : O.Contributes o := by
  obtain ⟨v, write, read⟩ := precedes
  exact contributes_iff.2 ⟨v, write, .inr ⟨c, h, read⟩⟩

/-- In a sound outline every result is used, so every operator contributes. -/
theorem Sound.contributes [Scalar α] {rank : OperatorId → Nat} (sound : O.Sound rank)
    {order : List OperatorId} (sorted : O.Sorted order) {o : OperatorId} {op : Operator α}
    (ho : O.operators o = some op) : O.Contributes o := by
  obtain ⟨earlier, later, e⟩ := List.append_of_mem ((sorted.mem_iff o).2 ⟨op, ho⟩)
  induction hn : later.length using Nat.strongRecOn generalizing o op earlier later with
  | ind n ih =>
    obtain ⟨v, outputs, _⟩ := sound.result ho
    have write : O.Writes o v := ⟨op, ho, outputs ▸ List.mem_singleton_self v⟩
    rcases sound.used write with ⟨c, read⟩ | output
    · have precedes : O.Precedes o c := ⟨v, write, read⟩
      obtain ⟨opc, hc, _⟩ := id read
      obtain ⟨between, rest, rfl⟩ := List.append_of_mem (sorted.later e precedes)
      have shorter : rest.length < n := by
        rw [← hn, List.length_append, List.length_cons]
        omega
      exact (ih rest.length shorter hc (earlier ++ o :: between) rest (by rw [e]; simp)
        rfl).of_precedes precedes
    · exact contributes_iff.2 ⟨v, write, .inl output⟩

end Outline

/-! ## The pass -/

open Classical in
/-- Going back over a sorted order, an operator writes something that is needed exactly when it
contributes, as all its readers were met before. -/
theorem deadOperators_eq {order : List OperatorId} (sorted : g.outline.Sorted order)
    (front back : List OperatorId) (e : order = front ++ back) (needed : List VariableId)
    (exact : ∀ v, v ∈ needed ↔
      v ∈ g.outputs ∨ ∃ c ∈ back, g.outline.Contributes c ∧ g.outline.Reads c v) :
    deadOperators g needed front.reverse =
      front.reverse.filter fun o => ¬g.outline.Contributes o := by
  induction front using List.reverseRecOn generalizing back needed with
  | nil => rfl
  | append_singleton front o ih =>
    have e' : order = front ++ o :: back := by rw [e, List.append_assoc]; rfl
    obtain ⟨op, ho⟩ := (sorted.mem_iff o).1 (e' ▸ List.mem_append_right front List.mem_cons_self)
    have ho : g.operatorAt? o = some op := ho
    have alive : op.outputs.any needed.contains = true ↔ g.outline.Contributes o := by
      rw [List.any_eq_true, Outline.contributes_iff]
      simp only [List.contains_iff_mem, exact]
      constructor
      · rintro ⟨v, hv, output | ⟨c, _, contributes, reads⟩⟩
        · exact ⟨v, ⟨op, ho, hv⟩, .inl output⟩
        · exact ⟨v, ⟨op, ho, hv⟩, .inr ⟨c, contributes, reads⟩⟩
      · rintro ⟨v, writes, output | ⟨c, contributes, reads⟩⟩
        · exact ⟨v, (Outline.writes_iff ho).1 writes, .inl output⟩
        · exact ⟨v, (Outline.writes_iff ho).1 writes,
            .inr ⟨c, sorted.later e' ⟨v, writes, reads⟩, contributes, reads⟩⟩
    rw [List.reverse_append, List.reverse_singleton, List.singleton_append, deadOperators, ho,
      List.filter_cons]
    by_cases contributes : g.outline.Contributes o
    · simp only [alive.2 contributes, contributes, not_true, decide_false, if_true]
      refine ih (o :: back) e' (op.inputs ++ needed) fun v => ?_
      have own : v ∈ op.inputs ↔ g.outline.Reads o v := (Outline.reads_iff ho).symm
      simp only [List.mem_append, exact, own, List.mem_cons, or_and_right, exists_or,
        exists_eq_left, contributes, true_and]
      exact or_left_comm
    · have dead : op.outputs.any needed.contains = false := by
        rw [← Bool.not_eq_true, alive]
        exact contributes
      simp only [dead, contributes, not_false_iff, decide_true, if_true]
      refine congrArg (o :: ·) (ih (o :: back) e' needed fun v => ?_)
      simp only [exact, List.mem_cons, or_and_right, exists_or, exists_eq_left, contributes,
        false_and, false_or]

theorem schedule_ok {order : List OperatorId} (found : g.topologicalOrder = .ok order) :
    schedule g = .ok order g := by
  rw [schedule, run_bind_ok (run_get g), found]
  rfl

/-- The operators that do not contribute are taken out of a graph without cycles, and then the
variables that nothing needs. -/
theorem removeDead_yields (h : g.Linked) (ranked : ∃ rank, g.outline.Ranked rank) :
    ∃ report dead, (∀ o, o ∈ dead ↔
        (∃ op, g.operatorAt? o = some op) ∧ ¬g.outline.Contributes o) ∧
      Yields removeDead g report (g.outline.without dead).pruned := by
  classical
  obtain ⟨rank, ranked⟩ := ranked
  obtain ⟨order, found⟩ := topologicalOrder_of_ranked h ranked
  have sorted := topologicalOrder_sorted h found
  let dead := order.reverse.filter fun o => ¬g.outline.Contributes o
  have search : deadOperators g g.outputs order.reverse = dead :=
    deadOperators_eq sorted order [] (List.append_nil order).symm g.outputs fun v => by simp
  have mem (o : OperatorId) : o ∈ dead ↔
      (∃ op, g.operatorAt? o = some op) ∧ ¬g.outline.Contributes o := by
    rw [List.mem_filter, List.mem_reverse, sorted.mem_iff, decide_eq_true_iff]
    rfl
  obtain ⟨g₁, removed, linked, outline⟩ := removeAll_yields h
    ((List.nodup_reverse.2 sorted.nodup).filter _) fun o ho => ((mem o).1 ho).1
  obtain ⟨dropped, g₂, pruned, linked₂, outline₂⟩ := prune_yields linked
  have run : ∃ report, removeDead g = .ok report g₂ := by
    rw [removeDead, run_bind_ok (schedule_ok found), run_bind_ok (run_get g),
      run_bind_ok (run_get g)]
    simp only [search]
    rw [run_bind_ok removed, run_bind_ok pruned]
    exact ⟨_, rfl⟩
  obtain ⟨report, run⟩ := run
  exact ⟨report, dead, mem, g₂, run, linked₂, by rw [outline₂, outline]⟩

/-- There is nothing to do where every operator contributes and every variable is needed. -/
theorem removeDead_settled (h : g.Linked) (ranked : ∃ rank, g.outline.Ranked rank)
    (contributes : ∀ o op, g.operatorAt? o = some op → g.outline.Contributes o)
    (needed : ∀ v, g.outline.Live v → g.outline.Needed v) :
    removeDead g = .ok .nothing g := by
  classical
  obtain ⟨rank, ranked⟩ := ranked
  obtain ⟨order, found⟩ := topologicalOrder_of_ranked h ranked
  have sorted := topologicalOrder_sorted h found
  have nil : deadOperators g g.outputs order.reverse = [] := by
    rw [deadOperators_eq sorted order [] (List.append_nil order).symm g.outputs fun v => by simp,
      List.filter_eq_nil_iff]
    intro o ho
    obtain ⟨op, ho⟩ := (sorted.mem_iff o).1 (List.mem_reverse.1 ho)
    simpa using contributes o op ho
  rw [removeDead, run_bind_ok (schedule_ok found), run_bind_ok (run_get g),
    run_bind_ok (run_get g)]
  simp only [nil]
  have none_left : ([].forM fun o => discard (removeOperator o)) g = .ok ⟨⟩ g := rfl
  rw [run_bind_ok none_left, run_bind_ok (prune_idle h needed)]
  rfl

variable [Scalar α]

theorem removeDead_idle (h : g.Tidy) : removeDead g = .ok .nothing g := by
  obtain ⟨rank, sound⟩ := h.sound
  obtain ⟨order, found⟩ := topologicalOrder_of_ranked h.linked sound.ranked
  exact removeDead_settled h.linked ⟨rank, sound.ranked⟩
    (fun o op ho => sound.contributes (topologicalOrder_sorted h.linked found) ho) h.needed

end TensorGraph
