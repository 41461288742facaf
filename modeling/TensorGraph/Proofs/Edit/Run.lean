import TensorGraph.Graph.Edit
import TensorGraph.Proofs.Graph.Linked

/-!
# TensorGraph.Proofs.Edit.Run

What the parts of an edit do to a graph.

* `Relinked`: a graph differs from another one only in the records of its variables.
* `forM_updateVariable`: one change at every variable of a list, for a change that does nothing
  when it is made again.
* `Edit.Ensures`: what holds after an edit, if it succeeds.
* `Edit.Yields`: an edit succeeds and leaves a linked graph with a given outline.
-/

namespace TensorGraph

variable {α β γ : Type}

namespace Edit

section

variable {ε σ : Type} {e : EStateM ε σ β} {k : β → EStateM ε σ γ} {s s' : σ}

/-! Lowering and optimization are told in the same monad, over states of their own. -/

theorem run_bind (e : EStateM ε σ β) (k : β → EStateM ε σ γ) (s : σ) :
    (e >>= k) s = match e s with
      | .ok x s' => k x s'
      | .error err s' => .error err s' := by
  show EStateM.bind e k s = _
  unfold EStateM.bind
  cases e s <;> rfl

theorem run_bind_ok {x : β} (h : e s = .ok x s') : (e >>= k) s = k x s' := by
  rw [run_bind, h]

theorem run_bind_error {err : ε} (h : e s = .error err s') : (e >>= k) s = .error err s' := by
  rw [run_bind, h]

theorem run_bind_ok_iff {y : γ} :
    (e >>= k) s = .ok y s' ↔ ∃ x s₁, e s = .ok x s₁ ∧ k x s₁ = .ok y s' := by
  rw [run_bind]
  cases e s with
  | ok x s₁ => exact ⟨fun h => ⟨x, s₁, rfl, h⟩, fun ⟨_, _, h, hk⟩ => by cases h; exact hk⟩
  | error err s₁ => exact ⟨(nomatch ·), fun ⟨_, _, h, _⟩ => nomatch h⟩

theorem run_bind_pure_ok_iff (f : β → γ) {y : γ} :
    (∃ s', (e >>= fun x => pure (f x)) s = .ok y s') ↔ ∃ x s', e s = .ok x s' ∧ y = f x := by
  simp only [run_bind_ok_iff]
  constructor
  · rintro ⟨s', x, _, run, done⟩
    cases done
    exact ⟨x, _, run, rfl⟩
  · rintro ⟨x, s', run, rfl⟩
    exact ⟨s', x, s', run, rfl⟩

/-- If the computation succeeds, its result and the state that it leaves are as `P` says. -/
def Ensures (e : EStateM ε σ β) (s : σ) (P : β → σ → Prop) : Prop :=
  ∀ x s', e s = .ok x s' → P x s'

theorem ensures_pure {P : β → σ → Prop} {x : β} (h : P x s) :
    Ensures (pure x : EStateM ε σ β) s P := by
  intro _ _ run
  cases run
  exact h

theorem ensures_throw {P : β → σ → Prop} (err : ε) : Ensures (throw err : EStateM ε σ β) s P :=
  fun _ _ run => nomatch run

theorem ensures_bind {P : γ → σ → Prop}
    (h : ∀ x s₁, e s = .ok x s₁ → Ensures (k x) s₁ P) : Ensures (e >>= k) s P := by
  intro y s' run
  obtain ⟨x, s₁, first, rest⟩ := run_bind_ok_iff.1 run
  exact h x s₁ first y s' rest

theorem ensures_get {k : σ → EStateM ε σ β} {P : β → σ → Prop} (h : Ensures (k s) s P) :
    Ensures (get >>= k) s P :=
  ensures_bind fun _ _ run => by cases run; exact h

end

@[simp] theorem run_pure (x : β) (g : Graph α) : (pure x : Edit α β) g = .ok x g := rfl

@[simp] theorem run_get (g : Graph α) : (get : Edit α (Graph α)) g = .ok g g := rfl

@[simp] theorem run_throw (e : GraphError) (g : Graph α) :
    (throw e : Edit α β) g = .error e g := rfl

@[simp] theorem run_modify (f : Graph α → Graph α) (g : Graph α) :
    (modify f : Edit α Unit) g = .ok ⟨⟩ (f g) := rfl

theorem run_discard {e : Edit α β} {g g' : Graph α} {x : β} (h : e g = .ok x g') :
    (discard e) g = .ok ⟨⟩ g' := by
  show EStateM.map _ e g = _
  simp only [EStateM.map, h]

theorem run_discard_error {e : Edit α β} {g g' : Graph α} {err : GraphError}
    (h : e g = .error err g') : (discard e) g = .error err g' := by
  show EStateM.map _ e g = _
  simp only [EStateM.map, h]

theorem run_discard_ok_iff {e : Edit α β} {g g' : Graph α} {u : Unit} :
    (discard e) g = .ok u g' ↔ ∃ x, e g = .ok x g' := by
  cases h : e g with
  | ok x g₁ =>
    rw [run_discard h]
    exact ⟨fun e => by cases e; exact ⟨x, rfl⟩, fun ⟨_, e⟩ => by cases e; rfl⟩
  | error err g₁ =>
    rw [run_discard_error h]
    exact ⟨(nomatch ·), fun ⟨_, e⟩ => nomatch e⟩

theorem run_liveVariable {v : VariableId} {g : Graph α} {x : Variable α}
    (h : g.variableAt? v = some x) : liveVariable v g = .ok x g := by
  simp only [liveVariable, run_bind, run_get, h, run_pure]

theorem run_liveVariable_none {v : VariableId} {g : Graph α} (h : g.variableAt? v = none) :
    liveVariable v g = .error (.atVariable v .variableNotLive) g := by
  simp only [liveVariable, run_bind, run_get, h, run_throw]

theorem run_liveOperator {o : OperatorId} {g : Graph α} {op : Operator α}
    (h : g.operatorAt? o = some op) : liveOperator o g = .ok op g := by
  simp only [liveOperator, run_bind, run_get, h, run_pure]

theorem run_liveOperator_none {o : OperatorId} {g : Graph α} (h : g.operatorAt? o = none) :
    liveOperator o g = .error (.atOperator o .operatorNotLive) g := by
  simp only [liveOperator, run_bind, run_get, h, run_throw]

theorem run_updateVariable {v : VariableId} {f : Variable α → Variable α} {g : Graph α}
    {x : Variable α} (h : g.variableAt? v = some x) :
    updateVariable v f g =
      .ok ⟨⟩ { g with variableSlots := g.variableSlots.put v.index (f x) } := by
  simp only [updateVariable, run_bind, run_liveVariable h, run_modify]

theorem run_updateOperator {o : OperatorId} {f : Operator α → Operator α} {g : Graph α}
    {op : Operator α} (h : g.operatorAt? o = some op) :
    updateOperator o f g =
      .ok ⟨⟩ { g with operatorSlots := g.operatorSlots.put o.index (f op) } := by
  simp only [updateOperator, run_bind, run_liveOperator h, run_modify]

theorem run_updateOperator_none {o : OperatorId} {f : Operator α → Operator α} {g : Graph α}
    (h : g.operatorAt? o = none) :
    updateOperator o f g = .error (.atOperator o .operatorNotLive) g := by
  simp only [updateOperator, run_bind, run_liveOperator_none h]

theorem forM_cons (f : β → Edit α Unit) (x : β) (xs : List β) :
    (x :: xs).forM f = (f x >>= fun _ => xs.forM f) := rfl

/-- A check of every element that leaves the graph alone and does not fail. -/
theorem forM_check (f : β → Edit α Unit) (g : Graph α) (xs : List β)
    (h : ∀ x ∈ xs, f x g = .ok ⟨⟩ g) : xs.forM f g = .ok ⟨⟩ g := by
  induction xs with
  | nil => rfl
  | cons x xs ih =>
    rw [forM_cons, run_bind_ok (h x List.mem_cons_self)]
    exact ih fun y hy => h y (List.mem_cons_of_mem x hy)

/-- A check of every element that leaves the graph alone and fails at some of them. -/
theorem forM_check_error (f : β → Edit α Unit) (g : Graph α) (xs : List β)
    (h : ∀ x ∈ xs, f x g = .ok ⟨⟩ g ∨ ∃ e, f x g = .error e g)
    (bad : ∃ x ∈ xs, f x g ≠ .ok ⟨⟩ g) : ∃ e, xs.forM f g = .error e g := by
  induction xs with
  | nil => obtain ⟨_, hx, _⟩ := bad; cases hx
  | cons x xs ih =>
    rw [forM_cons]
    rcases h x List.mem_cons_self with hx | ⟨e, hx⟩
    · rw [run_bind_ok hx]
      refine ih (fun y hy => h y (List.mem_cons_of_mem x hy)) ?_
      obtain ⟨y, hy, ne⟩ := bad
      rcases List.mem_cons.1 hy with rfl | hy
      · exact absurd hx ne
      · exact ⟨y, hy, ne⟩
    · exact ⟨e, run_bind_error hx⟩

/-- The edit succeeds with result `x` and leaves a linked graph whose outline is `O`. -/
def Yields (e : Edit α β) (g : Graph α) (x : β) (O : Outline α) : Prop :=
  ∃ g', e g = .ok x g' ∧ g'.Linked ∧ g'.outline = O

theorem Yields.bind {e : Edit α β} {k : β → Edit α γ} {g : Graph α} {x : β} {y : γ}
    {O O' : Outline α} (h : Yields e g x O)
    (hk : ∀ g', g'.Linked → g'.outline = O → Yields (k x) g' y O') :
    Yields (e >>= k) g y O' := by
  obtain ⟨g', run, linked, outline⟩ := h
  obtain ⟨g'', run', rest⟩ := hk g' linked outline
  exact ⟨g'', by rw [run_bind_ok run, run'], rest⟩

theorem Yields.discard {e : Edit α β} {g : Graph α} {x : β} {O : Outline α}
    (h : Yields e g x O) : Yields (discard e) g ⟨⟩ O := by
  obtain ⟨g', run, rest⟩ := h
  exact ⟨g', run_discard run, rest⟩

end Edit

/-- `g'` is `g` with the record of every live variable `v` changed by `f v`. -/
structure Relinked (g g' : Graph α) (f : VariableId → Variable α → Variable α) : Prop where
  operators : g'.operatorSlots = g.operatorSlots
  inputs : g'.inputs = g.inputs
  outputs : g'.outputs = g.outputs
  variableAt? : ∀ v, g'.variableAt? v = (g.variableAt? v).map (f v)

namespace Relinked

variable {g g₁ g₂ : Graph α} {f f' : VariableId → Variable α → Variable α}

theorem trans (h : Relinked g g₁ f) (h' : Relinked g₁ g₂ f') :
    Relinked g g₂ fun v x => f' v (f v x) where
  operators := h'.operators.trans h.operators
  inputs := h'.inputs.trans h.inputs
  outputs := h'.outputs.trans h.outputs
  variableAt? v := by rw [h'.variableAt?, h.variableAt?, Option.map_map]; rfl

theorem live (h : Relinked g g₁ f) (v : VariableId) :
    (g₁.variableAt? v).isSome = (g.variableAt? v).isSome := by
  rw [h.variableAt?, Option.isSome_map]

theorem congr (h : Relinked g g₁ f)
    (e : ∀ v x, g.variableAt? v = some x → f v x = f' v x) : Relinked g g₁ f' where
  operators := h.operators
  inputs := h.inputs
  outputs := h.outputs
  variableAt? v := by
    rw [h.variableAt?]
    cases hx : g.variableAt? v with
    | none => rfl
    | some x => simp only [Option.map_some, e v x hx]

end Relinked

theorem variableAt?_put {g : Graph α} {v : VariableId} {x : Variable α}
    (hv : (g.variableAt? v).isSome) (w : VariableId) :
    ({ g with variableSlots := g.variableSlots.put v.index x } : Graph α).variableAt? w =
      if w = v then some x else g.variableAt? w := by
  obtain ⟨y, hy⟩ := Option.isSome_iff_exists.1 hv
  have bound := Arena.lt_size_of_get? hy
  show (g.variableSlots.put v.index x).get? w.index = _
  rw [Arena.get?_put]
  by_cases e : w = v
  · subst e
    rw [if_pos ⟨rfl, bound⟩, if_pos rfl]
  · have ne : v.index ≠ w.index := fun h => e (by cases v; cases w; simp_all)
    rw [if_neg fun h => ne h.1, if_neg e]
    rfl

theorem operatorAt?_put {g : Graph α} {o : OperatorId} {op : Operator α}
    (ho : (g.operatorAt? o).isSome) (p : OperatorId) :
    ({ g with operatorSlots := g.operatorSlots.put o.index op } : Graph α).operatorAt? p =
      if p = o then some op else g.operatorAt? p := by
  obtain ⟨y, hy⟩ := Option.isSome_iff_exists.1 ho
  have bound := Arena.lt_size_of_get? hy
  show (g.operatorSlots.put o.index op).get? p.index = _
  rw [Arena.get?_put]
  by_cases e : p = o
  · subst e
    rw [if_pos ⟨rfl, bound⟩, if_pos rfl]
  · have ne : o.index ≠ p.index := fun h => e (by cases o; cases p; simp_all)
    rw [if_neg fun h => ne h.1, if_neg e]
    rfl

theorem operatorAt?_erase (g : Graph α) (o p : OperatorId) :
    ({ g with operatorSlots := g.operatorSlots.erase o.index } : Graph α).operatorAt? p =
      if p = o then none else g.operatorAt? p := by
  show (g.operatorSlots.erase o.index).get? p.index = _
  rw [Arena.get?_erase]
  by_cases e : p = o
  · subst e; simp
  · have ne : o.index ≠ p.index := fun h => e (by cases o; cases p; simp_all)
    rw [if_neg ne, if_neg e]
    rfl

theorem relinked_refl (g : Graph α) : Relinked g g fun _ x => x :=
  ⟨rfl, rfl, rfl, fun v => by cases g.variableAt? v <;> rfl⟩

theorem relinked_put {g : Graph α} {v : VariableId} {x : Variable α}
    (hx : g.variableAt? v = some x) (f : Variable α → Variable α) :
    Relinked g { g with variableSlots := g.variableSlots.put v.index (f x) }
      fun w y => if w = v then f y else y where
  operators := rfl
  inputs := rfl
  outputs := rfl
  variableAt? w := by
    rw [variableAt?_put (by rw [hx]; rfl)]
    by_cases e : w = v
    · subst e; simp [hx]
    · simp [e]

/-- One change at every variable of a list. A variable that is listed twice is changed twice, and
the second change does nothing. -/
theorem forM_updateVariable {f : Variable α → Variable α} (idem : ∀ x, f (f x) = f x)
    (vs : List VariableId) (g : Graph α) (live : ∀ v ∈ vs, (g.variableAt? v).isSome) :
    ∃ g', vs.forM (fun v => Edit.updateVariable v f) g = .ok ⟨⟩ g' ∧
      Relinked g g' fun v x => if v ∈ vs then f x else x := by
  induction vs generalizing g with
  | nil => exact ⟨g, rfl, by simpa using relinked_refl g⟩
  | cons v vs ih =>
    obtain ⟨x, hx⟩ := Option.isSome_iff_exists.1 (live v List.mem_cons_self)
    have first := relinked_put hx f
    obtain ⟨g', run, rest⟩ := ih _ fun w hw => by
      rw [first.live]
      exact live w (List.mem_cons_of_mem v hw)
    refine ⟨g', by rw [Edit.forM_cons, Edit.run_bind_ok (Edit.run_updateVariable hx), run], ?_⟩
    refine (first.trans rest).congr fun w y _ => ?_
    by_cases ev : w = v <;> by_cases hw : w ∈ vs <;> simp [ev, hw, idem]

end TensorGraph
