import TensorGraph.Proofs.Graph.Order
import TensorGraph.Proofs.Graph.Reachable
import TensorGraph.Proofs.Lowering.Generation
import TensorGraph.Proofs.Trace.Acceptance

/-!
# TensorGraph.Proofs.Lowering.History

Which stages a run of a backend enters.

* `Untraversed`, `Refuses`: what can fail, and with which error.
* `Completed`, `Aborted`: the history of a run that succeeds, and that of a run that fails.
* `lower_history`: operators are lowered one after the other, up to the first one that is refused.
* `Graph.generate_history`: every run is completed or aborted, whatever the limits and the backend.
-/

namespace TensorGraph

variable {α β κ δ : Type}

open Edit

namespace Generation

variable (g : Graph α) (limits : Graph α → Except GraphError Unit)

/-! ## Failures -/

/-- An order of the operators of a valid graph that keeps the limits. -/
def Traversed (order : List OperatorId) : Prop :=
  g.validate = .ok ⟨⟩ ∧ limits g = .ok ⟨⟩ ∧ g.topologicalOrder = .ok order

/-- The error of a graph that is not valid, that exceeds the limits, or that has no order. -/
def Untraversed (e : GraphError) : Prop :=
  g.validate = .error e ∨ (g.validate = .ok ⟨⟩ ∧ limits g = .error e) ∨
    (g.validate = .ok ⟨⟩ ∧ limits g = .ok ⟨⟩ ∧ g.topologicalOrder = .error e)

variable {g limits}

theorem Traversed.not_untraversed {order : List OperatorId} (h : Traversed g limits order)
    (e : GraphError) : ¬Untraversed g limits e := by
  obtain ⟨valid, within, sorted⟩ := h
  rintro (invalid | ⟨_, beyond⟩ | ⟨_, _, unsorted⟩)
  · cases valid.symm.trans invalid
  · cases within.symm.trans beyond
  · cases sorted.symm.trans unsorted

theorem traversed_or (g : Graph α) (limits : Graph α → Except GraphError Unit) :
    (∃ order, Traversed g limits order) ∨ ∃ e, Untraversed g limits e := by
  cases valid : g.validate with
  | error e => exact .inr ⟨e, .inl valid⟩
  | ok _ =>
    cases within : limits g with
    | error e => exact .inr ⟨e, .inr (.inl ⟨valid, within⟩)⟩
    | ok _ =>
      cases sorted : g.topologicalOrder with
      | error e => exact .inr ⟨e, .inr (.inr ⟨valid, within, sorted⟩)⟩
      | ok order => exact .inl ⟨order, valid, within, sorted⟩

/-- A check that fails in a stage of its own: two stages are entered. -/
theorem enter_settle_error {stage : Stage} {check : Except GraphError β} {e : GraphError}
    (h : check = .error e) (r : Generation) : (do enter stage; settle check : Step β) r =
      .error e ⟨.failed e.message, r.history ++ [stage]⟩ := by
  rw [h]
  rfl

theorem traverse_error {e : GraphError} (h : Untraversed g limits e) (r : Generation) :
    traverse g limits r = .error e ⟨.failed e.message, r.history ++ [.traversing]⟩ := by
  refine enter_settle_error ?_ r
  rcases h with invalid | ⟨valid, beyond⟩ | ⟨valid, within, unsorted⟩
  · rw [invalid]
    rfl
  · rw [valid, beyond]
    rfl
  · rw [valid, within, unsorted]
    rfl

section

variable [Scalar α] (g) (f : Operator α → Except GraphError κ)

/-- The error of an operator whose shapes do not check, or that the backend does not lower. -/
def Refuses (o : OperatorId) (e : GraphError) : Prop :=
  ∃ op, g.operatorAt? o = some op ∧
    (g.checkOperator op = .error e ∨ (g.checkOperator op = .ok ⟨⟩ ∧ f op = .error e))

/-- The part of an order up to the first operator that is refused, and its error. -/
def FirstRefused (order lowered : List OperatorId) (e : GraphError) : Prop :=
  ∃ before o after, order = before ++ o :: after ∧ lowered = before ++ [o] ∧
    (∀ b ∈ before, ∃ x, Lowers g f b x) ∧ Refuses g f o e

variable {g f}

theorem lowers_or_refuses {o : OperatorId} (live : ∃ op, g.operatorAt? o = some op) :
    (∃ x, Lowers g f o x) ∨ ∃ e, Refuses g f o e := by
  obtain ⟨op, ho⟩ := live
  cases checked : g.checkOperator op with
  | error e => exact .inr ⟨e, op, ho, .inl checked⟩
  | ok _ =>
    cases made : f op with
    | error e => exact .inr ⟨e, op, ho, .inr ⟨checked, made⟩⟩
    | ok x => exact .inl ⟨x, op, ho, checked, made⟩

theorem lowerOne_error {o : OperatorId} {e : GraphError} (h : Refuses g f o e) (r : Generation) :
    lowerOne g f o r = .error e ⟨.failed e.message, r.history ++ [.lowering o]⟩ := by
  obtain ⟨op, ho, refused⟩ := h
  refine enter_settle_error ?_ r
  rw [ho]
  show (g.checkOperator op >>= fun _ => f op) = _
  rcases refused with unfit | ⟨fit, unmade⟩
  · rw [unfit]
    rfl
  · rw [fit]
    exact unmade

/-- Live operators are lowered one after the other, up to the first one that is refused. -/
theorem lower_history {order : List OperatorId}
    (live : ∀ o ∈ order, ∃ op, g.operatorAt? o = some op) (r : Generation) :
    (∃ xs r', lower g order f r = .ok xs r' ∧ (∀ o ∈ order, ∃ x, Lowers g f o x) ∧
      r'.history = r.history ++ order.map .lowering) ∨
    ∃ lowered e, FirstRefused g f order lowered e ∧ lower g order f r =
      .error e ⟨.failed e.message, r.history ++ lowered.map .lowering⟩ := by
  unfold lower
  induction order generalizing r with
  | nil => exact .inl ⟨[], r, rfl, nofun, (List.append_nil _).symm⟩
  | cons o rest ih =>
    obtain ⟨first, others⟩ := List.forall_mem_cons.1 live
    rw [List.mapM_cons]
    rcases lowers_or_refuses first with ⟨x, lowers⟩ | ⟨e, refuses⟩
    · rw [run_bind_ok (lowerOne_ok_iff.2 ⟨lowers, rfl⟩)]
      -- What the rest of the order enters is recorded behind the stage of `o`.
      rcases ih others ⟨.lowering o, r.history⟩ with
        ⟨xs, r', run, each, history⟩ |
        ⟨lowered, e, ⟨before, o', after, split, upto, each, refuses⟩, run⟩
      · refine .inl ⟨x :: xs, r', ?_, List.forall_mem_cons.2 ⟨⟨x, lowers⟩, each⟩, ?_⟩
        · rw [run_bind_ok run]
          rfl
        · rw [history, Generation.history, List.append_assoc]
          rfl
      · refine .inr ⟨o :: lowered, e, ⟨o :: before, o', after, ?_, ?_,
          List.forall_mem_cons.2 ⟨⟨x, lowers⟩, each⟩, refuses⟩, ?_⟩
        · rw [split, List.cons_append]
        · rw [upto, List.cons_append]
        · rw [run_bind_error run, Generation.history, List.append_assoc]
          rfl
    · refine .inr ⟨[o], e, ⟨[], o, rest, rfl, rfl, nofun, refuses⟩, ?_⟩
      rw [run_bind_error (lowerOne_error refuses r)]
      rfl

end

/-! ## Histories -/

section

variable [Scalar α] (g limits) (f : Operator α → Except GraphError κ)

/-- A run in which nothing fails. -/
structure Completed (r : Generation) (order : List OperatorId) : Prop where
  traversed : Traversed g limits order
  lowered : ∀ o ∈ order, ∃ x, Lowers g f o x
  history : r.history = [.start, .traversing] ++ order.map .lowering ++ [.packing, .done]

/-- A run that fails, before it lowers an operator or at the last one that it enters. -/
structure Aborted (e : GraphError) (r : Generation) (lowered : List OperatorId) : Prop where
  untraversed_iff : lowered = [] ↔ Untraversed g limits e
  refused : lowered ≠ [] → ∃ order, Traversed g limits order ∧ FirstRefused g f order lowered e
  history : r.history = [.start, .traversing] ++ lowered.map .lowering ++ [.failed e.message]
  unfinished : .packing ∉ r.history ∧ .done ∉ r.history

/-- What is known of a run by its result. -/
def Ends : EStateM.Result GraphError Generation β → Prop
  | .ok _ r => ∃ order, Completed g limits f r order
  | .error e r => ∃ lowered, Aborted g limits f e r lowered

variable {g limits f} {e : GraphError} {lowered : List OperatorId}

theorem history_unfinished (e : GraphError) (lowered : List OperatorId) :
    let stages : List Stage :=
      [.start, .traversing] ++ lowered.map .lowering ++ [.failed e.message]
    .packing ∉ stages ∧ .done ∉ stages := by
  simp

theorem aborted_of_untraversed (h : Untraversed g limits e) :
    Aborted g limits f e ⟨.failed e.message, [.start, .traversing]⟩ [] where
  untraversed_iff := iff_of_true rfl h
  refused ne := absurd rfl ne
  history := rfl
  unfinished := history_unfinished e []

theorem aborted_of_refused {order : List OperatorId} (traversed : Traversed g limits order)
    (h : FirstRefused g f order lowered e) : Aborted g limits f e
      ⟨.failed e.message, [.start, .traversing] ++ lowered.map .lowering⟩ lowered where
  untraversed_iff := by
    refine iff_of_false ?_ (traversed.not_untraversed e)
    obtain ⟨before, o, _, _, rfl, _⟩ := h
    exact List.append_ne_nil_of_right_ne_nil before (List.cons_ne_nil o [])
  refused _ := ⟨order, traversed, h⟩
  history := rfl
  unfinished := history_unfinished e lowered

/-- A run is completed or aborted, if an order is one of live operators. -/
theorem run_ends (live : ∀ order, g.topologicalOrder = .ok order →
      ∀ o ∈ order, ∃ op, g.operatorAt? o = some op)
    (describe : List OperatorId → WeightBuffer α → List κ → δ) :
    Ends g limits f (run g limits f describe .start) := by
  unfold run
  rcases traversed_or g limits with ⟨order, traversed⟩ | ⟨e, untraversed⟩
  · rw [run_bind_ok (traverse_ok_iff.2 ⟨traversed, rfl⟩)]
    rcases lower_history (live order traversed.2.2) ⟨.traversing, start.history⟩ with
      ⟨xs, r', lowered, each, history⟩ | ⟨lowered, e, refused, failed⟩
    · rw [run_bind_ok lowered]
      refine ⟨order, traversed, each, ?_⟩
      show r'.history ++ [.packing] ++ [.done] = _
      rw [history, List.append_assoc]
      rfl
    · rw [run_bind_error failed]
      exact ⟨lowered, aborted_of_refused traversed refused⟩
  · rw [run_bind_error (traverse_error untraversed start)]
    exact ⟨[], aborted_of_untraversed untraversed⟩

end

end Generation

open Generation

/-- Runs over reachable graphs are completed or aborted, whatever the limits, the backend, and what
it makes of an operator. Both backends run so. At any time a run is in the last stage of its
history. -/
theorem Graph.generate_history [Scalar α] {g : Graph α} (reachable : g.Reachable) :
    (∀ (κ δ : Type) (limits : Graph α → Except GraphError Unit)
      (f : Operator α → Except GraphError κ)
      (describe : List OperatorId → WeightBuffer α → List κ → δ),
      Ends g limits f (run g limits f describe .start)) ∧
    Ends g (fun _ => .ok ⟨⟩) (fun op => .ok (Portable.kernel g op)) (Portable.generate g .start) ∧
    (∀ n, Ends g Device.checkAddressable (Device.lowerOperator g n) (Device.generate g n .start)) ∧
    ∀ r : Generation, r.history.getLast? = some r.stage := by
  have live (order : List OperatorId) (sorted : g.topologicalOrder = .ok order) (o : OperatorId)
      (ho : o ∈ order) : ∃ op, g.operatorAt? o = some op :=
    ((topologicalOrder_sorted reachable.linked sorted).mem_iff o).1 ho
  refine ⟨fun κ δ limits f describe => run_ends live describe, ?_, fun n => ?_, fun r => ?_⟩
  · rw [Portable.generate_eq_run]
    exact run_ends live _
  · rw [Device.generate_eq_run]
    exact run_ends live _
  · exact List.getLast?_concat

/-- The stages that a run of the device enters for a trace before it fails. -/
def Trace.stagesOfFailure (t : Trace) (workgroupSize : Nat) : List Stage :=
  match t.toGraph with
  | .error _ => []
  | .ok g =>
    match Device.generate g workgroupSize .start with
    | .ok _ _ => []
    | .error _ r => r.history

/-- An activation, which the device has a kernel for, and a normalization, which it has none for. -/
def Trace.normalizedActivation : Trace :=
  Trace.empty.addVariable "x" [1, 1, 1, 1] |>.addVariable "y" [1, 1, 1, 1]
    |>.addVariable "z" [1, 1, 1, 1] |>.addNode "ReLU" ["x"] ["y"] .null
    |>.addNode "LocalResponseNormalization" ["y"] ["z"] .null |>.designate ["x"] ["z"]

/-- The device enters the stages of both of its operators, and fails in the second one. -/
theorem Graph.generate_history_normalizedActivation : ∃ g e r lowered,
    Trace.normalizedActivation.toGraph = .ok g ∧ g.Reachable ∧
      Device.generate g 64 .start = .error e r ∧
      Aborted g Device.checkAddressable (Device.lowerOperator g 64) e r lowered ∧
      r.history = [.start, .traversing, .lowering ⟨0⟩, .lowering ⟨1⟩, .failed
        ("backend `webgpu` has no lowering for `local_response_normalization` " ++
          "(op1(local_response_normalization))")] := by
  have stages : Trace.normalizedActivation.stagesOfFailure 64 = [.start, .traversing,
      .lowering ⟨0⟩, .lowering ⟨1⟩, .failed
        ("backend `webgpu` has no lowering for `local_response_normalization` " ++
          "(op1(local_response_normalization))")] := by
    decide +kernel
  unfold Trace.stagesOfFailure at stages
  split at stages
  · cases stages
  · next g converted =>
    have reachable : g.Reachable := (Conversion.toGraph_checked converted).reachable
    have ends := (generate_history reachable).2.2.1 64
    split at stages
    · cases stages
    · next e r failed =>
      rw [failed] at ends
      obtain ⟨lowered, aborted⟩ := ends
      exact ⟨g, e, r, lowered, converted, reachable, failed, aborted, stages⟩

end TensorGraph
