import TensorGraph.Proofs.Evaluation.Run

/-!
# TensorGraph.Proofs.Evaluation.Solution

Evaluation told without an order.

* `Outline.Solution`: buffers for all variables, under which every operator computes its result from
  its operands.
* `exists_solution`: a sound graph has one for inputs of the right sizes.
* `evaluateAlong_of_solution`: in whichever order, evaluation gives the outputs of whatever solution
  there is.

So two graphs compute the same when solutions of the one give solutions of the other.
-/

namespace TensorGraph

variable {α β γ : Type}

namespace Outline

/-- Buffers that agree with the constants and have the sizes of their shapes. -/
structure Assigned (O : Outline α) (φ : VariableId → Array α) : Prop where
  constant : ∀ {v x}, O.payload? v = some x → φ v = x
  sized : ∀ {v}, O.Live v → O.payload? v = none → (φ v).size = (O.shape v).size

/-- In `φ`, the operator's result is what its kind computes from its operands. -/
def Computes [Scalar α] (O : Outline α) (φ : VariableId → Array α) (op : Operator α) : Prop :=
  ∀ w, op.outputs = [w] →
    op.kind.compute (op.inputs.map O.shape) (O.shape w) (op.inputs.map φ) = some (φ w)

/-- Buffers for all variables, as the buffers `bound` to the inputs determine them. -/
structure Solution [Scalar α] (O : Outline α) (bound : Valuation α) (φ : VariableId → Array α) :
    Prop extends O.Assigned φ where
  given : ∀ {v x}, v ∈ O.inputs → bound.lookup v = some x → φ v = x
  computes : ∀ {o op}, O.operators o = some op → O.Computes φ op

/-- What an operator computes depends on its own variables only. -/
theorem Computes.congr [Scalar α] {O O' : Outline α} {φ φ' : VariableId → Array α}
    {op : Operator α} (h : O.Computes φ op)
    (shapes : ∀ v, v ∈ op.inputs ∨ v ∈ op.outputs → O'.shape v = O.shape v)
    (values : ∀ v, v ∈ op.inputs ∨ v ∈ op.outputs → φ' v = φ v) : O'.Computes φ' op := by
  intro w outputs
  have hw : w ∈ op.outputs := outputs ▸ List.mem_singleton.2 rfl
  have inputShapes : op.inputs.map O'.shape = op.inputs.map O.shape :=
    List.map_congr_left fun v hv => shapes v (.inl hv)
  have inputValues : op.inputs.map φ' = op.inputs.map φ :=
    List.map_congr_left fun v hv => values v (.inl hv)
  rw [inputShapes, inputValues, shapes w (.inr hw), values w (.inr hw)]
  exact h w outputs

end Outline

namespace Graph

theorem mapM_ok_eq_map {ε : Type} {f : β → Except ε γ} {k : β → γ}
    (h : ∀ x y, f x = .ok y → k x = y) {xs : List β} {ys : List γ} (run : xs.mapM f = .ok ys) :
    ys = xs.map k := by
  induction xs generalizing ys with
  | nil =>
    cases run
    rfl
  | cons x xs ih =>
    rw [List.mapM_cons] at run
    obtain ⟨y, hy, run⟩ := except_bind_ok_iff.1 run
    obtain ⟨zs, rest, done⟩ := except_bind_ok_iff.1 run
    cases done
    rw [List.map_cons, h x y hy, ih rest]

variable {g : Graph α} {values : Valuation α}

/-- Constants have the sizes of their shapes anyway. -/
theorem assigned_size (h : g.Linked) {φ : VariableId → Array α} (assigned : g.outline.Assigned φ)
    {v : VariableId} (live : g.outline.Live v) : (φ v).size = (g.outline.shape v).size := by
  cases payload : g.outline.payload? v with
  | some x => rw [assigned.constant payload, payload?_size h payload]
  | none => exact assigned.sized live payload

theorem valueOf_cons_of_ne {v w : VariableId} (ne : v ≠ w) (r : Array α) :
    g.valueOf ((w, r) :: values) v = g.valueOf values v := by
  simp only [valueOf, List.lookup_cons, beq_eq_false_iff_ne.2 ne]

/-- The values computed so far are those of `φ`. -/
def Agrees (φ : VariableId → Array α) (values : Valuation α) : Prop :=
  ∀ v x, values.lookup v = some x → φ v = x

theorem Agrees.valueOf {φ : VariableId → Array α} (h : Agrees φ values)
    (assigned : g.outline.Assigned φ) {v : VariableId} {x : Array α}
    (value : g.valueOf values v = .ok x) : φ v = x := by
  rcases valueOf_ok value with payload | ⟨_, found⟩
  · exact assigned.constant (payload?_eq g v ▸ payload)
  · exact h v x found

variable [Scalar α] {rank : OperatorId → Nat}

/-! ## Evaluation follows every solution -/

theorem Agrees.step {φ : VariableId → Array α} {bound : Valuation α}
    (sound : g.outline.Sound rank) (solution : g.outline.Solution bound φ) (h : Agrees φ values)
    {o : OperatorId} {op : Operator α} (ho : g.operatorAt? o = some op) {values' : Valuation α}
    (step : g.evaluateStep values o = .ok values') : Agrees φ values' := by
  obtain ⟨w, outputs, _⟩ := sound.result ho
  obtain ⟨operands, r, read, run, rfl⟩ := (evaluateStep_ok_iff ho outputs).1 step
  have same : operands = op.inputs.map φ :=
    mapM_ok_eq_map (fun _ _ => h.valueOf solution.toAssigned) read
  have result := evaluateOperator_result run outputs
  rw [same, solution.computes ho w outputs] at result
  intro v x found
  rw [List.lookup_cons] at found
  split at found
  · next e =>
    rw [beq_iff_eq.1 e, Option.some.inj result]
    exact Option.some.inj found
  · exact h v x found

theorem Agrees.run {φ : VariableId → Array α} {bound : Valuation α}
    (sound : g.outline.Sound rank) (solution : g.outline.Solution bound φ) {os : List OperatorId}
    (live : ∀ o ∈ os, ∃ op, g.operatorAt? o = some op) (h : Agrees φ values)
    {values' : Valuation α} (run : os.foldlM g.evaluateStep values = .ok values') :
    Agrees φ values' := by
  induction os generalizing values with
  | nil =>
    cases run
    exact h
  | cons o os ih =>
    rw [List.foldlM_cons] at run
    obtain ⟨values₁, step, run⟩ := except_bind_ok_iff.1 run
    obtain ⟨op, ho⟩ := live o List.mem_cons_self
    have agrees := h.step sound solution ho step
    exact ih (fun o' ho' => live o' (List.mem_cons_of_mem o ho')) agrees run

/-- The buffers bound to the inputs of a graph. The last one of an input counts. -/
def bindings (g : Graph α) (inputs : List (Array α)) : Valuation α :=
  (g.inputs.zip inputs).reverse

omit [Scalar α] in
theorem lookup_bindings {inputs : List (Array α)} {v : VariableId} {x : Array α}
    (found : (g.bindings inputs).lookup v = some x) : v ∈ g.inputs := by
  obtain ⟨before, after, e, _⟩ := List.lookup_eq_some_iff.1 found
  have mem : (v, x) ∈ g.inputs.zip inputs := by
    rw [← List.mem_reverse]
    show (v, x) ∈ g.bindings inputs
    rw [e]
    exact List.mem_append_right _ List.mem_cons_self
  exact (List.of_mem_zip mem).1

/-- In whichever order, evaluation gives the outputs of every solution. -/
theorem evaluateAlong_of_solution (h : g.Linked) (sound : g.outline.Sound rank)
    {order : List OperatorId} (sorted : g.outline.Sorted order) {inputs : List (Array α)}
    (fits : g.Fits inputs) {φ : VariableId → Array α}
    (solution : g.outline.Solution (g.bindings inputs) φ) :
    g.evaluateAlong order inputs = .ok (g.outputs.map φ) := by
  obtain ⟨outputs, evaluated, _⟩ := evaluateAlong_total h sound sorted fits
  obtain ⟨values₀, bound, rest⟩ := except_bind_ok_iff.1 evaluated
  obtain ⟨values, run, read⟩ := except_bind_ok_iff.1 rest
  cases (bindInputs_ok fits).symm.trans bound
  have start : Agrees φ (g.bindings inputs) := fun v x hx =>
    solution.given (lookup_bindings hx) hx
  have agrees := start.run sound solution (fun o ho => (sorted.mem_iff o).1 ho) run
  rw [evaluated, mapM_ok_eq_map (fun _ _ => agrees.valueOf solution.toAssigned) read]

/-- Evaluation gives the outputs of every solution. -/
theorem evaluate_of_solution (h : g.Linked) (sound : g.outline.Sound rank)
    {inputs : List (Array α)} (fits : g.Fits inputs) {φ : VariableId → Array α}
    (solution : g.outline.Solution (g.bindings inputs) φ) :
    g.evaluate inputs = .ok (g.outputs.map φ) := by
  obtain ⟨order, found⟩ := topologicalOrder_of_ranked h sound.ranked
  rw [evaluate_eq_along found]
  exact evaluateAlong_of_solution h sound (topologicalOrder_sorted h found) fits solution

/-! ## Evaluation makes a solution -/

/-- The operators done so far have their results for operands that do not change any more. -/
structure Solved (g : Graph α) (bound : Valuation α) (done : List OperatorId)
    (values : Valuation α) : Prop where
  given : ∀ v ∈ g.inputs, values.lookup v = bound.lookup v
  computed : ∀ o ∈ done, ∀ op w, g.operatorAt? o = some op → op.outputs = [w] → ∃ operands r,
    op.inputs.mapM (g.valueOf values) = .ok operands ∧
      op.kind.compute (op.inputs.map g.outline.shape) (g.outline.shape w) operands = some r ∧
      g.valueOf values w = .ok r

theorem Solved.step {bound : Valuation α} (h : g.Linked) (sound : g.outline.Sound rank)
    {order done rest : List OperatorId} {o : OperatorId} (sorted : g.outline.Sorted order)
    (e : order = done ++ o :: rest) (solved : Solved g bound done values) {op : Operator α}
    (ho : g.operatorAt? o = some op) {values' : Valuation α}
    (step : g.evaluateStep values o = .ok values') : Solved g bound (done ++ [o]) values' := by
  obtain ⟨w, outputs, _⟩ := sound.result ho
  obtain ⟨operands, r, read, run, rfl⟩ := (evaluateStep_ok_iff ho outputs).1 step
  have write : g.outline.Writes o w := (Outline.writes_iff ho).2 (outputs ▸ List.mem_cons_self)
  have fresh : o ∉ done := fun hm =>
    (List.nodup_append.1 (e ▸ sorted.nodup)).2.2 o hm o List.mem_cons_self rfl
  -- Neither `o` nor an operator before it reads what `o` writes.
  have unread : ∀ p, p ∈ done ∨ p = o → ¬g.outline.Reads p w := by
    rintro p (hp | rfl) read
    · obtain ⟨before, after, split⟩ := List.append_of_mem hp
      refine fresh (split ▸ List.mem_append_left _ ?_)
      refine sorted.closed before p (after ++ o :: rest) ?_ o ⟨w, write, read⟩
      rw [e, split, List.append_assoc, List.cons_append]
    · exact sound.not_reads write (Nat.le_refl _) read
  have same {p : OperatorId} {opp : Operator α} (hp : p ∈ done ∨ p = o)
      (live : g.operatorAt? p = some opp) :
      opp.inputs.mapM (g.valueOf ((w, r) :: values)) = opp.inputs.mapM (g.valueOf values) := by
    refine Kernel.mapM_congr (List.forall₂_same.2 fun u hu => valueOf_cons_of_ne ?_ r)
    rintro rfl
    exact unread p hp ⟨opp, live, hu⟩
  refine ⟨fun v hv => ?_, fun p hp opp u live outputs' => ?_⟩
  · have ne : v ≠ w := fun e => (sound.inputs_free hv).2 o (e ▸ write)
    rw [List.lookup_cons, beq_eq_false_iff_ne.2 ne]
    exact solved.given v hv
  · rcases List.mem_append.1 hp with hp | hp
    · obtain ⟨operands', r', read', run', value⟩ := solved.computed p hp opp u live outputs'
      have ne : u ≠ w := by
        rintro rfl
        have : p = o := h.writer_unique
          ((Outline.writes_iff live).2 (outputs' ▸ List.mem_cons_self)) write
        exact fresh (this ▸ hp)
      exact ⟨operands', r', (same (.inl hp) live).trans read', run',
        (valueOf_cons_of_ne ne r).trans value⟩
    · cases List.mem_singleton.1 hp
      cases ho.symm.trans live
      cases outputs.symm.trans outputs'
      refine ⟨operands, r, (same (.inr rfl) ho).trans read, evaluateOperator_result run outputs,
        valueOf_of_lookup ?_ List.lookup_cons_self⟩
      rw [payload?_eq]
      exact sound.computed write

theorem Solved.run {bound : Valuation α} (h : g.Linked) (sound : g.outline.Sound rank)
    {order done rest : List OperatorId} (sorted : g.outline.Sorted order)
    (e : order = done ++ rest) (solved : Solved g bound done values) {values' : Valuation α}
    (run : rest.foldlM g.evaluateStep values = .ok values') : Solved g bound order values' := by
  induction rest generalizing done values with
  | nil =>
    rw [List.append_nil] at e
    cases run
    exact e ▸ solved
  | cons o rest ih =>
    have mem : o ∈ order := by
      rw [e]
      exact List.mem_append_right _ List.mem_cons_self
    obtain ⟨op, ho⟩ := (sorted.mem_iff o).1 mem
    rw [List.foldlM_cons] at run
    obtain ⟨values₁, step, run⟩ := except_bind_ok_iff.1 run
    exact ih (by rw [e, List.append_assoc, List.singleton_append])
      (solved.step h sound sorted e ho step) run

/-- A sound graph has a solution for all inputs of the right sizes. -/
theorem exists_solution (h : g.Linked) (sound : g.outline.Sound rank) {inputs : List (Array α)}
    (fits : g.Fits inputs) : ∃ φ, g.outline.Solution (g.bindings inputs) φ := by
  obtain ⟨order, found⟩ := topologicalOrder_of_ranked h sound.ranked
  have sorted := topologicalOrder_sorted h found
  obtain ⟨values, run, known⟩ := (known_inputs fits).run h sound sorted (List.nil_append order).symm
  have blank : Solved g (g.bindings inputs) [] (g.bindings inputs) :=
    ⟨fun _ _ => rfl, fun _ ho => nomatch ho⟩
  have solved := blank.run h sound sorted (List.nil_append order).symm run
  -- What no operator needs may have any buffer of its size.
  let φ (v : VariableId) : Array α :=
    (g.valueOf values v).toOption.getD (Array.replicate (g.outline.shape v).size Scalar.zero)
  have value (v : VariableId) (x : Array α) (hx : g.valueOf values v = .ok x) : φ v = x := by
    simp only [φ, hx, Except.toOption, Option.getD_some]
  refine ⟨φ, ⟨fun payload => ?_, fun {v} _ unset => ?_⟩, fun hv found => ?_, fun ho => ?_⟩
  · exact value _ _ (valueOf_of_payload ((payload?_eq g _).trans payload))
  · rw [← payload?_eq] at unset
    cases found : values.lookup v with
    | some x =>
      rw [value v x (valueOf_of_lookup unset found)]
      exact known.sized found
    | none =>
      simp only [φ, valueOf, unset, found, Except.toOption, Option.getD_none, Array.size_replicate]
  · refine value _ _ (valueOf_of_lookup ?_ ((solved.given _ hv).trans found))
    rw [payload?_eq]
    exact (sound.inputs_free hv).1
  · intro w outputs
    obtain ⟨operands, r, read, result, written⟩ :=
      solved.computed _ ((sorted.mem_iff _).2 ⟨_, ho⟩) _ w ho outputs
    rw [value w r written, ← result, mapM_ok_eq_map value read]

end Graph

end TensorGraph
