import TensorGraph.Proofs.Evaluation.Reordering
import TensorGraph.Proofs.Trace.Acceptance

/-!
# TensorGraph.Proofs.Trace.NodeOrder

The order in which a trace lists its nodes.

* `Trace.WellFormed.permuted`: what a trace has to satisfy does not depend on it.
* `Trace.Depicted.reordered`: neither does its graph, apart from the ids of operators.
* `Trace.toGraph_permuted`: so traces that differ in it are accepted together, and mean the same.
-/

namespace TensorGraph

open Conversion TensorGraph.Graph
open Relation (TransGen)

namespace Trace

/-- The trace with other nodes. -/
def withNodes (t : Trace) (nodes : List TracedNode) : Trace := { t with nodes }

variable {t : Trace} {nodes : List TracedNode} {g g' : Graph Binary32}

/-! ## Acceptance -/

section

variable (order : nodes.Perm t.nodes)

include order

theorem reads_permuted {x : String} : (t.withNodes nodes).Reads x ↔ t.Reads x :=
  exists_congr fun _ => and_congr_left' order.mem_iff

theorem computes_permuted {x : String} : (t.withNodes nodes).Computes x ↔ t.Computes x :=
  exists_congr fun _ => and_congr_left' order.mem_iff

/-- A cycle among permuted nodes is one among their places in the trace. -/
theorem acyclic_permuted (acyclic : ∀ i, ¬TransGen t.Feeds i i) :
    ∀ i, ¬TransGen (t.withNodes nodes).Feeds i i := by
  have places (i : Nat) : ∃ j : Nat, ∀ n, nodes[i]? = some n → t.nodes[j]? = some n := by
    cases found : nodes[i]? with
    | none => exact ⟨i, nofun⟩
    | some n =>
      obtain ⟨j, hj⟩ := List.getElem?_of_mem (order.mem_iff.1 (List.mem_of_getElem? found))
      exact ⟨j, fun _ e => by cases e; exact hj⟩
  choose place found using places
  intro i cycle
  refine acyclic (place i) (TransGen.lift place (fun a b feeds => ?_) i i cycle)
  obtain ⟨n, m, x, hn, hm, written, read⟩ := feeds
  exact ⟨n, m, x, found a n hn, found b m hm, written, read⟩

theorem WellFormed.permuted (h : t.WellFormed) : (t.withNodes nodes).WellFormed where
  distinct := h.distinct
  tensors := h.tensors
  nodes n hn := h.nodes n (order.mem_iff.1 hn)
  results_distinct := (order.flatMap_right _).nodup_iff.2 h.results_distinct
  results_computed n hn := h.results_computed n (order.mem_iff.1 hn)
  inputs x hx := by
    rw [computes_permuted order]
    exact h.inputs x hx
  outputs := h.outputs
  acyclic := acyclic_permuted order h.acyclic
  sourced x hx := by
    rw [reads_permuted order] at hx
    rw [computes_permuted order]
    exact h.sourced x hx
  used x hx := by
    rw [computes_permuted order] at hx
    rw [reads_permuted order]
    exact h.used x hx

end

/-! ## Graphs -/

theorem Names.list_unique (distinct : (t.tensors.map (·.name)).Nodup) {xs : List String}
    {vs ws : List VariableId} (hv : List.Forall₂ t.Names xs vs) (hw : List.Forall₂ t.Names xs ws) :
    vs = ws := by
  induction hv generalizing ws with
  | nil => cases hw; rfl
  | cons first _ ih =>
    cases hw with
    | cons first' rest' => rw [first.unique distinct first', ih rest']

namespace Depicted

theorem tensors_eq_some_iff (depicted : t.Depicted g) {v : VariableId} {u : Tensor Binary32} :
    g.outline.tensors v = some u ↔ ∃ d, t.tensors[v.index]? = some d ∧ d.tensor = u ∧
      (t.Reads d.name ∨ t.Computes d.name ∨ d.name ∈ t.inputs ∨ d.name ∈ t.outputs) := by
  constructor
  · intro found
    obtain ⟨x, hx, rfl⟩ := Option.map_eq_some_iff.1 found
    obtain ⟨d, hd, name, shape, payload⟩ := depicted.tensors v x hx
    refine ⟨d, hd, ?_, (depicted.kept v d hd).1 ⟨x, hx⟩⟩
    rw [TracedVariable.tensor, Variable.tensor, name, shape, payload]
  · rintro ⟨d, hd, rfl, used⟩
    obtain ⟨x, hx⟩ := (depicted.kept v d hd).2 used
    obtain ⟨d', hd', name, shape, payload⟩ := depicted.tensors v x hx
    cases hd.symm.trans hd'
    rw [outline_tensors_of hx, TracedVariable.tensor, Variable.tensor, name, shape, payload]

theorem shape_of_name (depicted : t.Depicted g) (distinct : (t.tensors.map (·.name)).Nodup)
    {x : String} {s : Shape} {v : VariableId} (named : t.Names x v) (live : g.outline.Live v)
    (has : t.HasShape x s) : g.shape v = s := by
  obtain ⟨u, found⟩ := live
  obtain ⟨d, hd, rfl, _⟩ := depicted.tensors_eq_some_iff.1 found
  obtain ⟨e, he, name, rfl⟩ := has
  obtain ⟨i, hi⟩ := List.getElem?_of_mem he
  have same : v = ⟨i⟩ := named.unique distinct ⟨e, hi, name⟩
  subst same
  cases hd.symm.trans hi
  rw [Graph.shape_eq, Outline.shape_of found]
  rfl

theorem shapes_of_names (depicted : t.Depicted g) (distinct : (t.tensors.map (·.name)).Nodup)
    {xs : List String} {shapes : List Shape} {vs : List VariableId}
    (named : List.Forall₂ t.Names xs vs) (live : ∀ v ∈ vs, g.outline.Live v)
    (has : List.Forall₂ t.HasShape xs shapes) : vs.map g.shape = shapes := by
  induction named generalizing shapes with
  | nil => cases has; rfl
  | cons first _ ih =>
    cases has with
    | cons shape shapes =>
      obtain ⟨head, tail⟩ := List.forall_mem_cons.1 live
      rw [List.map_cons, depicted.shape_of_name distinct first head shape, ih tail shapes]

/-- An operator of the graph is what conversion makes of its node, with the operands and the result
that the node names. -/
theorem operator (depicted : t.Depicted g) (linked : g.Linked)
    (distinct : (t.tensors.map (·.name)).Nodup) {o : OperatorId} {op : Operator Binary32}
    (ho : g.operatorAt? o = some op) : ∃ n w, t.nodes[o.index]? = some n ∧ op.outputs = [w] ∧
      List.Forall₂ t.Names n.inputs op.inputs ∧ List.Forall₂ t.Names n.outputs [w] ∧
      kindOf g n.parameters op.inputs [w] = .ok op.kind := by
  have lowers := depicted.operators o
  rw [ho] at lowers
  cases found : t.nodes[o.index]? with
  | none => rw [found] at lowers; cases lowers
  | some n =>
    rw [found] at lowers
    cases lowers with
    | some lowers =>
      obtain ⟨operands, y, result, shapes, one, shape, denotes, _⟩ := lowers.applies
      have outs := lowers.outputs
      rw [one] at outs
      obtain ⟨w, rest, named, none, outputs⟩ := List.forall₂_cons_left_iff.1 outs
      cases none
      have written : g.outline.Live w :=
        linked.output_live ⟨op, ho, by rw [outputs]; exact List.mem_singleton_self w⟩
      have read (v : VariableId) (hv : v ∈ op.inputs) : g.outline.Live v :=
        linked.input_live ⟨op, ho, hv⟩
      refine ⟨n, w, rfl, outputs, lowers.inputs, by rw [one]; exact .cons named .nil, ?_⟩
      rw [kindOf_ok_iff, depicted.shape_of_name distinct named written shape,
        depicted.shapes_of_names distinct lowers.inputs read shapes]
      exact denotes

section

variable (depicted : t.Depicted g) (depicted' : (t.withNodes nodes).Depicted g')
  (order : nodes.Perm t.nodes)

include depicted depicted' order

theorem same_tensors : g'.outline.tensors = g.outline.tensors := by
  funext v
  refine Option.ext fun u => ?_
  rw [depicted.tensors_eq_some_iff, depicted'.tensors_eq_some_iff]
  simp only [reads_permuted order, computes_permuted order]
  rfl

/-- The operator of a node is the same in both graphs, but for its id. -/
theorem exists_like (linked : g.Linked) (linked' : g'.Linked)
    (distinct : (t.tensors.map (·.name)).Nodup) {o : OperatorId} {op : Operator Binary32}
    (ho : g.operatorAt? o = some op) : ∃ o' op', g'.operatorAt? o' = some op' ∧
      op'.kind = op.kind ∧ op'.inputs = op.inputs ∧ op'.outputs = op.outputs := by
  obtain ⟨n, w, hn, outputs, ins, outs, kind⟩ := depicted.operator linked distinct ho
  obtain ⟨j, hj⟩ := List.getElem?_of_mem (order.mem_iff.2 (List.mem_of_getElem? hn))
  have found : (t.withNodes nodes).nodes[j]? = some n := hj
  have related := depicted'.operators ⟨j⟩
  rw [found] at related
  cases ho' : g'.operatorAt? ⟨j⟩ with
  | none => rw [ho'] at related; cases related
  | some op' =>
    obtain ⟨n', w', hn', outputs', ins', outs', kind'⟩ := depicted'.operator linked' distinct ho'
    cases found.symm.trans hn'
    have sameIns : op'.inputs = op.inputs := Names.list_unique distinct ins' ins
    have sameOuts : [w'] = [w] := Names.list_unique distinct outs' outs
    have shapes : g'.shape = g.shape := funext fun v => by
      rw [Graph.shape_eq, Graph.shape_eq,
        Outline.shape_congr (congrFun (same_tensors depicted depicted' order) v)]
    rw [sameIns, sameOuts, kindOf_ok_iff, shapes, ← kindOf_ok_iff, kind] at kind'
    exact ⟨⟨j⟩, op', ho', (Except.ok.inj kind').symm, sameIns,
      outputs'.trans (sameOuts.trans outputs.symm)⟩

end

theorem reordered (depicted : t.Depicted g) (depicted' : (t.withNodes nodes).Depicted g')
    (order : nodes.Perm t.nodes) (linked : g.Linked) (linked' : g'.Linked)
    (distinct : (t.tensors.map (·.name)).Nodup) : g.Reordered g' where
  tensors := same_tensors depicted depicted' order
  inputs := Names.list_unique distinct depicted'.inputs depicted.inputs
  outputs := Names.list_unique distinct depicted'.outputs depicted.outputs
  operators _ _ ho := exists_like depicted depicted' order linked linked' distinct ho
  others _ _ ho' := by
    have back : ((t.withNodes nodes).withNodes t.nodes).Depicted g := depicted
    exact exists_like depicted' back order.symm linked' linked distinct ho'

end Depicted

end Trace

/-- A trace with its nodes in another order is accepted too, and its graph differs from the one of
the trace in the ids of operators only. Both graphs have the same values, and refuse the same inputs
with the same errors; and whatever the operations on scalars are, they have the same values. -/
theorem Trace.toGraph_permuted {t : Trace} {g : Graph Binary32} (converted : t.toGraph = .ok g)
    {nodes : List TracedNode} (order : nodes.Perm t.nodes) : ∃ g',
      (t.withNodes nodes).toGraph = .ok g' ∧ g.Reordered g' ∧
      (∀ inputs, g'.evaluate inputs = g.evaluate inputs) ∧
      ∀ (scalars : Scalar Binary32) inputs,
        (@Graph.evaluate Binary32 scalars g' inputs).toOption =
          (@Graph.evaluate Binary32 scalars g inputs).toOption := by
  have wellFormed := wellFormed_of_ok converted
  obtain ⟨g', converted'⟩ := ok_of_wellFormed (wellFormed.permuted order)
  have tidy := (toGraph_checked converted).tidy
  have tidy' := (toGraph_checked converted').tidy
  have reordered : g.Reordered g' := (depicted_of_ok converted).reordered
    (depicted_of_ok converted') order tidy.linked tidy'.linked wellFormed.distinct
  refine ⟨g', converted', reordered, reordered.evaluate_eq tidy tidy', fun scalars inputs => ?_⟩
  exact reordered.evaluate_interpreted tidy tidy' inputs

/-- The softmax of the classifier may be listed before the layer that it is taken of. -/
theorem Trace.toGraph_permuted_classifier : ∃ g g',
    classifier.nodes.reverse.map (·.tag) = ["Softmax", "Linear"] ∧
      classifier.toGraph = .ok g ∧
      (classifier.withNodes classifier.nodes.reverse).toGraph = .ok g' ∧ g.Reordered g' ∧
      ∀ inputs, g'.evaluate inputs = g.evaluate inputs := by
  have converts : classifier.toGraph.toOption.isSome = true := by decide +kernel
  obtain ⟨g, converted⟩ := Graph.except_exists_ok converts
  obtain ⟨g', converted', reordered, same, _⟩ :=
    toGraph_permuted converted (List.reverse_perm classifier.nodes)
  exact ⟨g, g', by decide, converted, converted', reordered, same⟩

end TensorGraph
