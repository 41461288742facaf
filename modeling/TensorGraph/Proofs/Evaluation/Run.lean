import TensorGraph.Proofs.Evaluation.Operator
import TensorGraph.Proofs.Graph.Order

/-!
# TensorGraph.Proofs.Evaluation.Run

Graphs that pass their checks always have a value.

* `Known`: the invariant of a run. After some operators the inputs and their results have values
  of the right sizes.
* `evaluateStep_ok_iff`: what one operator adds.
* `evaluateAlong_total`: for inputs of the right sizes there are outputs of the right sizes, in
  whichever order the operators come.
-/

namespace TensorGraph

variable {α β γ : Type}

namespace Graph

theorem except_mapM_total {ε : Type} {f : β → Except ε γ} {P : β → γ → Prop} {xs : List β}
    (h : ∀ x ∈ xs, ∃ y, f x = .ok y ∧ P x y) :
    ∃ ys, xs.mapM f = .ok ys ∧ List.Forall₂ P xs ys := by
  induction xs with
  | nil => exact ⟨[], rfl, .nil⟩
  | cons x xs ih =>
    obtain ⟨y, hy, first⟩ := h x List.mem_cons_self
    obtain ⟨ys, run, rest⟩ := ih fun z hz => h z (List.mem_cons_of_mem x hz)
    refine ⟨y :: ys, ?_, .cons first rest⟩
    rw [List.mapM_cons, except_bind_ok hy, except_bind_ok run]
    rfl

theorem forall₂_map_eq {f : γ → Nat} {k : β → Nat} {xs : List β} {ys : List γ}
    (h : List.Forall₂ (fun x y => f y = k x) xs ys) : ys.map f = xs.map k := by
  induction h with
  | nil => rfl
  | cons first _ ih => rw [List.map_cons, List.map_cons, first, ih]

section

variable {g : Graph α} {values : Valuation α}

theorem valueOf_of_payload {v : VariableId} {x : Array α} (h : g.payload? v = some x) :
    g.valueOf values v = .ok x := by
  simp only [valueOf, h]

theorem valueOf_of_lookup {v : VariableId} {x : Array α} (h : g.payload? v = none)
    (found : values.lookup v = some x) : g.valueOf values v = .ok x := by
  simp only [valueOf, h, found]

theorem valueOf_ok {v : VariableId} {x : Array α} (h : g.valueOf values v = .ok x) :
    g.payload? v = some x ∨ g.payload? v = none ∧ values.lookup v = some x := by
  unfold valueOf at h
  split at h
  · next payload => exact .inl (payload.trans (congrArg some (Except.ok.inj h)))
  · next unset =>
    split at h
    · next found => exact .inr ⟨unset, found.trans (congrArg some (Except.ok.inj h))⟩
    · cases h

end

/-- Buffers given for the inputs of a graph, each of the size of its variable. -/
def Fits (g : Graph α) (inputs : List (Array α)) : Prop :=
  inputs.map Array.size = g.inputs.map fun v => (g.shape v).size

theorem zip_size {size : VariableId → Nat} {vs : List VariableId} {xs : List (Array α)}
    (h : xs.map Array.size = vs.map size) : ∀ p ∈ vs.zip xs, p.2.size = size p.1 := by
  induction vs generalizing xs with
  | nil => intro p hp; cases hp
  | cons v vs ih =>
    cases xs with
    | nil => intro p hp; cases hp
    | cons x xs =>
      rw [List.map_cons, List.map_cons, List.cons.injEq] at h
      intro p hp
      rw [List.zip_cons_cons] at hp
      rcases List.mem_cons.1 hp with rfl | hp
      · exact h.1
      · exact ih h.2 p hp

theorem Fits.length {g : Graph α} {inputs : List (Array α)} (h : g.Fits inputs) :
    inputs.length = g.inputs.length := by
  have := congrArg List.length h
  rwa [List.length_map, List.length_map] at this

theorem foldlM_push {ε : Type} {f : List β → β → Except ε (List β)} {xs : List β}
    (h : ∀ acc, ∀ x ∈ xs, f acc x = .ok (x :: acc)) (start : List β) :
    xs.foldlM f start = .ok (xs.reverse ++ start) := by
  induction xs generalizing start with
  | nil => rfl
  | cons x xs ih =>
    rw [List.foldlM_cons, except_bind_ok (h start x List.mem_cons_self),
      ih (fun acc z hz => h acc z (List.mem_cons_of_mem x hz))]
    simp

theorem bindInputs_ok {g : Graph α} {inputs : List (Array α)} (h : g.Fits inputs) :
    g.bindInputs inputs = .ok (g.inputs.zip inputs).reverse := by
  have counted : ensure (inputs.length == g.inputs.length)
      (.invalidGraph (.named "inputs") (.bufferCount g.inputs.length inputs.length)) = .ok ⟨⟩ := by
    rw [ensure_ok_iff, beq_iff_eq, h.length]
  rw [bindInputs, except_bind_ok counted]
  rw [foldlM_push]
  · rw [List.append_nil]
  · intro acc p hp
    have fits : ensure (p.2.size == (g.shape p.1).size)
        (.shapeMismatch (.variable p.1) (.inputSize (g.shape p.1) p.2.size)) = .ok ⟨⟩ := by
      rw [ensure_ok_iff, beq_iff_eq, zip_size h p hp]
    exact except_bind_ok fits

variable [Scalar α] {g : Graph α} {values : Valuation α}

/-- What an operator adds to the values: its result for those of its operands. -/
theorem evaluateStep_ok_iff {o : OperatorId} {op : Operator α} (ho : g.operatorAt? o = some op)
    {w : VariableId} (outputs : op.outputs = [w]) {values' : Valuation α} :
    g.evaluateStep values o = .ok values' ↔ ∃ operands r,
      op.inputs.mapM (g.valueOf values) = .ok operands ∧ g.evaluateOperator op operands = .ok r ∧
        values' = (w, r) :: values := by
  simp only [evaluateStep, ho]
  rw [except_bind_ok_iff]
  constructor
  · rintro ⟨operands, read, run⟩
    obtain ⟨r, result, done⟩ := except_bind_ok_iff.1 run
    simp only [outputs] at done
    exact ⟨operands, r, read, result, (Except.ok.inj done).symm⟩
  · rintro ⟨operands, r, read, result, rfl⟩
    refine ⟨operands, read, ?_⟩
    rw [except_bind_ok result]
    simp only [outputs]
    rfl

/-- The inputs and the results of some operators have values, all of them of the right sizes. -/
structure Known (g : Graph α) (done : List OperatorId) (values : Valuation α) : Prop where
  sized : ∀ {v x}, values.lookup v = some x → x.size = (g.outline.shape v).size
  known : ∀ {v}, v ∈ g.inputs ∨ (∃ o ∈ done, g.outline.Writes o v) →
    ∃ x, values.lookup v = some x

omit [Scalar α] in
theorem known_inputs {inputs : List (Array α)} (h : g.Fits inputs) :
    Known g [] (g.inputs.zip inputs).reverse where
  sized := by
    intro v x found
    obtain ⟨before, after, e, _⟩ := List.lookup_eq_some_iff.1 found
    have mem : (v, x) ∈ g.inputs.zip inputs := by
      rw [← List.mem_reverse, e]
      exact List.mem_append_right _ List.mem_cons_self
    rw [← shape_eq]
    exact zip_size h (v, x) mem
  known := by
    rintro v (hv | ⟨o, ho, _⟩)
    · rw [← Option.isSome_iff_exists, List.lookup_isSome_iff]
      obtain ⟨i, hi, rfl⟩ := List.mem_iff_getElem.1 hv
      have hi' : i < (g.inputs.zip inputs).length := by
        rw [List.length_zip, h.length, Nat.min_self]
        exact hi
      refine ⟨(g.inputs.zip inputs)[i], List.mem_reverse.2 (List.getElem_mem hi'), ?_⟩
      rw [List.getElem_zip]
      exact beq_self_eq_true _
    · cases ho

theorem Known.value (h : g.Linked) {rank : OperatorId → Nat} (sound : g.outline.Sound rank)
    {done : List OperatorId} (known : Known g done values) {v : VariableId}
    (read : (∃ o, g.outline.Reads o v) ∨ v ∈ g.outputs)
    (written : ∀ o, g.outline.Writes o v → o ∈ done) :
    ∃ x, g.valueOf values v = .ok x ∧ x.size = (g.outline.shape v).size := by
  cases payload : g.payload? v with
  | some x => exact ⟨x, valueOf_of_payload payload, payload?_size h (payload?_eq g v ▸ payload)⟩
  | none =>
    have source : v ∈ g.inputs ∨ ∃ o ∈ done, g.outline.Writes o v := by
      rcases sound.sourced read with set | ⟨o, write⟩ | hv
      · exact absurd (payload?_eq g v ▸ payload) set
      · exact .inr ⟨o, written o write, write⟩
      · exact .inl hv
    obtain ⟨x, found⟩ := known.known source
    exact ⟨x, valueOf_of_lookup payload found, known.sized found⟩

/-- An operator whose predecessors are done has a value, and then it is done too. -/
theorem Known.step (h : g.Linked) {rank : OperatorId → Nat} (sound : g.outline.Sound rank)
    {done : List OperatorId} (known : Known g done values) {o : OperatorId} {op : Operator α}
    (ho : g.operatorAt? o = some op) (before : ∀ a, g.outline.Precedes a o → a ∈ done) :
    ∃ values', g.evaluateStep values o = .ok values' ∧ Known g (done ++ [o]) values' := by
  obtain ⟨w, outputs, _⟩ := sound.result ho
  have reads (u : VariableId) (hu : u ∈ op.inputs) :
      ∃ x, g.valueOf values u = .ok x ∧ x.size = (g.outline.shape u).size :=
    known.value h sound (.inl ⟨o, op, ho, hu⟩) fun a write => before a ⟨u, write, op, ho, hu⟩
  obtain ⟨operands, read, sizes⟩ := except_mapM_total reads
  obtain ⟨r, run, size⟩ := evaluateOperator_ok sound ho outputs (forall₂_map_eq sizes)
  refine ⟨(w, r) :: values,
    (evaluateStep_ok_iff ho outputs).2 ⟨operands, r, read, run, rfl⟩, ?_, ?_⟩
  · intro v x found
    rw [List.lookup_cons] at found
    split at found
    · next e =>
      cases found
      rw [beq_iff_eq.1 e]
      exact size
    · exact known.sized found
  · intro v source
    by_cases e : v = w
    · exact ⟨r, by rw [e, List.lookup_cons_self]⟩
    · have same : ((w, r) :: values).lookup v = values.lookup v := by
        rw [List.lookup_cons, beq_eq_false_iff_ne.2 e]
      rw [same]
      refine known.known (source.imp_right fun ⟨a, ha, write⟩ => ⟨a, ?_, write⟩)
      rcases List.mem_append.1 ha with ha | ha
      · exact ha
      · cases List.mem_singleton.1 ha
        rw [Outline.writes_iff ho, outputs] at write
        exact absurd (List.mem_singleton.1 write) e

theorem Known.run (h : g.Linked) {rank : OperatorId → Nat} (sound : g.outline.Sound rank)
    {order : List OperatorId} (sorted : g.outline.Sorted order) {done rest : List OperatorId}
    (e : order = done ++ rest) (known : Known g done values) :
    ∃ values', rest.foldlM g.evaluateStep values = .ok values' ∧ Known g order values' := by
  induction rest generalizing done values with
  | nil =>
    rw [List.append_nil] at e
    exact ⟨values, rfl, e ▸ known⟩
  | cons o rest ih =>
    have mem : o ∈ order := by
      rw [e]
      exact List.mem_append_right _ List.mem_cons_self
    obtain ⟨op, ho⟩ := (sorted.mem_iff o).1 mem
    obtain ⟨values', step, known'⟩ := known.step h sound ho (sorted.closed done o rest e)
    rw [List.foldlM_cons, except_bind_ok step]
    exact ih (by rw [e, List.append_assoc, List.singleton_append]) known'

/-- Evaluation with the operators in a given order. -/
def evaluateAlong (g : Graph α) (order : List OperatorId) (inputs : List (Array α)) :
    Except GraphError (List (Array α)) := do
  let values ← g.bindInputs inputs
  let values ← order.foldlM g.evaluateStep values
  g.outputs.mapM (g.valueOf values)

theorem evaluate_eq_along {order : List OperatorId} (found : g.topologicalOrder = .ok order)
    (inputs : List (Array α)) : g.evaluate inputs = g.evaluateAlong order inputs := by
  simp only [evaluate, evaluateAlong, found]
  rfl

/-- In whichever order the operators of a sound graph come, there are outputs for all inputs of the
right sizes, and they have the right sizes. -/
theorem evaluateAlong_total (h : g.Linked) {rank : OperatorId → Nat} (sound : g.outline.Sound rank)
    {order : List OperatorId} (sorted : g.outline.Sorted order) {inputs : List (Array α)}
    (fits : g.Fits inputs) : ∃ outputs, g.evaluateAlong order inputs = .ok outputs ∧
      outputs.map Array.size = g.outputs.map fun v => (g.outline.shape v).size := by
  obtain ⟨values, run, known⟩ := (known_inputs fits).run h sound sorted (List.nil_append order).symm
  have reads (v : VariableId) (hv : v ∈ g.outputs) :
      ∃ x, g.valueOf values v = .ok x ∧ x.size = (g.outline.shape v).size := by
    refine known.value h sound (.inr hv) fun o write => ?_
    obtain ⟨op, ho, _⟩ := write
    exact (sorted.mem_iff o).2 ⟨op, ho⟩
  obtain ⟨outputs, read, sizes⟩ := except_mapM_total reads
  refine ⟨outputs, ?_, forall₂_map_eq sizes⟩
  rw [evaluateAlong, except_bind_ok (bindInputs_ok fits), except_bind_ok run]
  exact read

/-- A sound graph has outputs for all inputs of the right sizes, and they have the right sizes. -/
theorem evaluate_total (h : g.Linked) {rank : OperatorId → Nat} (sound : g.outline.Sound rank)
    {inputs : List (Array α)} (fits : g.Fits inputs) :
    ∃ outputs, g.evaluate inputs = .ok outputs ∧
      outputs.map Array.size = g.outputs.map fun v => (g.outline.shape v).size := by
  obtain ⟨order, found⟩ := topologicalOrder_of_ranked h sound.ranked
  rw [evaluate_eq_along found]
  exact evaluateAlong_total h sound (topologicalOrder_sorted h found) fits

end Graph

end TensorGraph
