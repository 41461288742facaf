import TensorGraph.Graph.Validity
import TensorGraph.Proofs.Graph.Linked

/-!
# TensorGraph.Proofs.Graph.Validation

What is left to check in a linked graph.

* `validateOperator_ok`: every operator passes.
* `validateVariable_flaw`: a variable fails for its content alone, never for its links.
* `validate_flaw`: so no check of a linked graph blames a link.
* `validate_iff`: what a valid linked graph satisfies besides being linked.
-/

namespace TensorGraph

variable {α β : Type}

/-- The flaws of a graph whose two records disagree, or that names what is not there. -/
def GraphFlaw.ofLinks : GraphFlaw → Bool
  | .deadReference _ | .missingConsumer _ | .missingProducer _ | .staleProducer _
  | .staleConsumer _ | .payloadSize _ _ | .deadDesignation => true
  | _ => false

namespace Graph

theorem except_ok_bind {ε β γ : Type} (x : β) (k : β → Except ε γ) :
    ((.ok x : Except ε β) >>= k) = k x := rfl

theorem except_bind_ok {ε β γ : Type} {e : Except ε β} {k : β → Except ε γ} {x : β}
    (h : e = .ok x) : (e >>= k) = k x := by
  rw [h]; rfl

theorem except_bind_ok_iff {ε β γ : Type} {e : Except ε β} {k : β → Except ε γ} {y : γ} :
    (e >>= k) = .ok y ↔ ∃ x, e = .ok x ∧ k x = .ok y := by
  cases e with
  | error err => exact ⟨(nomatch ·), fun ⟨_, h, _⟩ => nomatch h⟩
  | ok x => exact ⟨fun h => ⟨x, rfl, h⟩, fun ⟨_, h, hk⟩ => by cases h; exact hk⟩

/-- A computation on fixed inputs, by whether it gives something. -/
theorem except_exists_ok {ε β : Type} {e : Except ε β} (given : e.toOption.isSome = true) :
    ∃ x, e = .ok x := by
  cases e with
  | error err => cases given
  | ok x => exact ⟨x, rfl⟩

theorem except_check_bind_ok_iff {ε γ : Type} {e : Except ε Unit} {k : Unit → Except ε γ} {y : γ} :
    (e >>= k) = .ok y ↔ e = .ok ⟨⟩ ∧ k ⟨⟩ = .ok y :=
  except_bind_ok_iff.trans ⟨fun ⟨_, h, hk⟩ => ⟨h, hk⟩, fun ⟨h, hk⟩ => ⟨_, h, hk⟩⟩

theorem forM_ok_iff {ε : Type} {f : β → Except ε Unit} {xs : List β} :
    xs.forM f = .ok ⟨⟩ ↔ ∀ x ∈ xs, f x = .ok ⟨⟩ := by
  induction xs with
  | nil => exact ⟨fun _ _ h => (nomatch h), fun _ => rfl⟩
  | cons x xs ih =>
    have unfolded : (x :: xs).forM f = (f x >>= fun _ => xs.forM f) := rfl
    rw [unfolded, List.forall_mem_cons, ← ih, except_check_bind_ok_iff]

theorem forM_error {ε : Type} {f : β → Except ε Unit} {xs : List β} {e : ε}
    (h : xs.forM f = .error e) : ∃ x ∈ xs, f x = .error e := by
  induction xs with
  | nil => cases h
  | cons x xs ih =>
    have unfolded : (x :: xs).forM f = (f x >>= fun _ => xs.forM f) := rfl
    rw [unfolded] at h
    cases hx : f x with
    | error e' =>
      rw [hx] at h
      exact ⟨x, List.mem_cons_self, hx.trans h⟩
    | ok u =>
      rw [hx] at h
      obtain ⟨y, hy, he⟩ := ih h
      exact ⟨y, List.mem_cons_of_mem x hy, he⟩

theorem ensure_ok_iff {c : Bool} {e : GraphError} : ensure c e = .ok ⟨⟩ ↔ c = true := by
  cases c <;> simp [ensure]

theorem ensure_bind_ok_iff {β : Type} {c : Bool} {e : GraphError}
    {k : Unit → Except GraphError β} {y : β} :
    (ensure c e >>= k) = .ok y ↔ c = true ∧ k ⟨⟩ = .ok y := by
  cases c
  · exact ⟨(nomatch ·), (nomatch ·.1)⟩
  · exact ⟨fun h => ⟨rfl, h⟩, And.right⟩

theorem ensure_error {c : Bool} {e e' : GraphError} (h : ensure c e = .error e') : e' = e := by
  cases c
  · exact (Except.error.inj h).symm
  · cases h

variable {g : Graph α}

theorem mem_liveOperators (h : g.Linked) {op : Operator α} :
    op ∈ g.liveOperators ↔ g.operatorAt? op.id = some op := by
  rw [liveOperators, Arena.mem_live]
  constructor
  · rintro ⟨i, hi⟩
    have ho : g.operatorAt? ⟨i⟩ = some op := hi
    rw [h.operator_id ho]
    exact hi
  · exact fun ho => ⟨op.id.index, ho⟩

theorem mem_liveVariables (h : g.Linked) {x : Variable α} :
    x ∈ g.liveVariables ↔ g.variableAt? x.id = some x := by
  rw [liveVariables, Arena.mem_live]
  constructor
  · rintro ⟨i, hi⟩
    have hv : g.variableAt? ⟨i⟩ = some x := hi
    rw [h.variable_id hv]
    exact hi
  · exact fun hv => ⟨x.id.index, hv⟩

theorem producer?_of {v : VariableId} {x : Variable α} (hx : g.variableAt? v = some x) :
    g.producer? v = x.producer := by
  simp only [producer?, hx]; rfl

theorem consumers_of {v : VariableId} {x : Variable α} (hx : g.variableAt? v = some x) :
    g.consumers v = x.consumers := by
  simp only [consumers, hx]

theorem validateOperator_ok (h : g.Linked) {op : Operator α}
    (hop : g.operatorAt? op.id = some op) : g.validateOperator op = .ok ⟨⟩ := by
  have live : (op.inputs ++ op.outputs).forM (fun v => ensure (g.variableAt? v).isSome
      (.invalidGraph op.place (.deadReference v))) = .ok ⟨⟩ := by
    rw [forM_ok_iff]
    intro v hv
    rw [ensure_ok_iff, Option.isSome_iff_exists, ← live_iff]
    rcases List.mem_append.1 hv with hv | hv
    · exact h.input_live ⟨op, hop, hv⟩
    · exact h.output_live ⟨op, hop, hv⟩
  have read : op.inputs.forM (fun v => ensure ((g.consumers v).contains op.id)
      (.atVariable v (.missingConsumer op.id))) = .ok ⟨⟩ := by
    rw [forM_ok_iff]
    intro v hv
    obtain ⟨x, hx⟩ := live_iff.1 (h.input_live ⟨op, hop, hv⟩)
    rw [ensure_ok_iff, consumers_of hx, List.contains_iff_mem, h.mem_consumers hx]
    exact ⟨op, hop, hv⟩
  have written : op.outputs.forM (fun v => ensure (g.producer? v == some op.id)
      (.atVariable v (.missingProducer op.id))) = .ok ⟨⟩ := by
    rw [forM_ok_iff]
    intro v hv
    obtain ⟨x, hx⟩ := live_iff.1 (h.output_live ⟨op, hop, hv⟩)
    rw [ensure_ok_iff, producer?_of hx, beq_iff_eq, h.producer_iff hx]
    exact ⟨op, hop, hv⟩
  rw [validateOperator]
  exact (except_bind_ok live).trans ((except_bind_ok read).trans written)

/-- What a valid graph asks of a variable besides its links. -/
structure ValidVariable (g : Graph α) (x : Variable α) : Prop where
  unproduced : x.producer ≠ none → x.payload = none
  positive : 0 ∉ x.shape
  sourced : x.producer ≠ none ∨ x.payload ≠ none ∨ x.id ∈ g.inputs
  used : x.consumers ≠ [] ∨ x.id ∈ g.outputs ∨ x.id ∈ g.inputs

/-- The checks of a variable that do not concern its links. -/
def validateContent (g : Graph α) (x : Variable α) : Except GraphError Unit := do
  match x.producer with
  | some _ => ensure (!x.isConstant) (.atVariable x.id .producedConstant)
  | none => pure ()
  ensure (!x.shape.contains 0) (.atVariable x.id (.emptyDimension x.shape))
  ensure (x.producer.isSome || x.isConstant || g.isInput x.id) (.atVariable x.id .unsourced)
  ensure (!x.consumers.isEmpty || g.isOutput x.id || g.isInput x.id) (.atVariable x.id .unused)

/-- In a linked graph the checks of the links of a variable all pass. -/
theorem validateVariable_eq (h : g.Linked) {x : Variable α}
    (hx : g.variableAt? x.id = some x) : g.validateVariable x = g.validateContent x := by
  have readers : x.consumers.forM (fun c => ensure (g.reads c x.id)
      (.atVariable x.id (.staleConsumer c))) = .ok ⟨⟩ := by
    rw [forM_ok_iff]
    intro c hc
    obtain ⟨op, hop, hv⟩ := (h.mem_consumers hx c).1 hc
    have hop : g.operatorAt? c = some op := hop
    simpa [ensure_ok_iff, reads, hop] using hv
  have sized (d) (hd : x.payload = some d) : ensure (d.size == x.size)
      (.atVariable x.id (.payloadSize d.size x.shape)) = .ok ⟨⟩ := by
    rw [ensure_ok_iff, beq_iff_eq]
    exact h.payload_size hx d hd
  cases hp : x.producer with
  | none =>
    cases hd : x.payload with
    | none => simp only [validateVariable, validateContent, hp, hd, readers, except_ok_bind]
    | some d =>
      simp only [validateVariable, validateContent, hp, hd, readers, sized d hd, except_ok_bind]
  | some p =>
    have writes : ensure (g.writes p x.id) (.atVariable x.id (.staleProducer p)) = .ok ⟨⟩ := by
      obtain ⟨op, hop, hv⟩ := (h.producer_iff hx p).1 hp
      have hop : g.operatorAt? p = some op := hop
      simpa [ensure_ok_iff, Graph.writes, hop] using hv
    cases hd : x.payload with
    | none =>
      simp only [validateVariable, validateContent, hp, hd, readers, writes, except_ok_bind]
    | some d =>
      simp only [validateVariable, validateContent, hp, hd, readers, writes, sized d hd,
        except_ok_bind]

theorem validateContent_iff {x : Variable α} :
    g.validateContent x = .ok ⟨⟩ ↔ g.ValidVariable x := by
  have split : g.validateContent x = .ok ⟨⟩ ↔
      (x.producer ≠ none → x.payload = none) ∧ 0 ∉ x.shape ∧
      (x.producer ≠ none ∨ x.payload ≠ none ∨ x.id ∈ g.inputs) ∧
      (x.consumers ≠ [] ∨ x.id ∈ g.outputs ∨ x.id ∈ g.inputs) := by
    cases hp : x.producer <;> cases hd : x.payload <;>
      simp [validateContent, hp, hd, ensure_bind_ok_iff, ensure_ok_iff, Variable.isConstant,
        isInput, isOutput, or_assoc]
  rw [split]
  exact ⟨fun ⟨a, b, c, d⟩ => ⟨a, b, c, d⟩, fun ⟨a, b, c, d⟩ => ⟨a, b, c, d⟩⟩

theorem validateContent_flaw {x : Variable α} {e : GraphError}
    (he : g.validateContent x = .error e) :
    ∃ flaw, e = .atVariable x.id flaw ∧ flaw.ofLinks = false ∧ flaw ≠ .cycle := by
  have step {c : Bool} {flaw : GraphFlaw} {k : Unit → Except GraphError Unit}
      (h : (ensure c (.atVariable x.id flaw) >>= k) = .error e) :
      e = .atVariable x.id flaw ∨ k ⟨⟩ = .error e := by
    cases c
    · exact .inl (Except.error.inj h).symm
    · exact .inr h
  cases hp : x.producer with
  | none =>
    simp only [validateContent, hp] at he
    rcases step he with rfl | he
    · exact ⟨_, rfl, rfl, (nomatch ·)⟩
    · rcases step he with rfl | he
      · exact ⟨_, rfl, rfl, (nomatch ·)⟩
      · exact ⟨_, ensure_error he, rfl, (nomatch ·)⟩
  | some p =>
    simp only [validateContent, hp] at he
    rcases step he with rfl | he
    · exact ⟨_, rfl, rfl, (nomatch ·)⟩
    · rcases step he with rfl | he
      · exact ⟨_, rfl, rfl, (nomatch ·)⟩
      · rcases step he with rfl | he
        · exact ⟨_, rfl, rfl, (nomatch ·)⟩
        · exact ⟨_, ensure_error he, rfl, (nomatch ·)⟩

theorem topologicalOrder_error {e : GraphError} (he : g.topologicalOrder = .error e) :
    ∃ place, e = .invalidGraph place .cycle := by
  simp only [topologicalOrder] at he
  split at he
  · cases he
  · exact ⟨_, (Except.error.inj he).symm⟩

theorem validateOrder_flaw {e : GraphError} (he : g.validateOrder = .error e) :
    ∃ place, e = .invalidGraph place .cycle := by
  unfold validateOrder at he
  split at he
  · cases ho : g.topologicalOrder with
    | error e' =>
      rw [ho] at he
      cases he
      exact topologicalOrder_error ho
    | ok order =>
      rw [ho] at he
      exact ⟨_, (Except.error.inj he).symm⟩
  · cases he

theorem operators_ok (h : g.Linked) : g.liveOperators.forM g.validateOperator = .ok ⟨⟩ :=
  forM_ok_iff.2 fun _ hop => validateOperator_ok h ((mem_liveOperators h).1 hop)

theorem designations_ok (h : g.Linked) :
    (g.inputs ++ g.outputs).forM (fun v =>
      ensure (g.variableAt? v).isSome (.atVariable v .deadDesignation)) = .ok ⟨⟩ :=
  forM_ok_iff.2 fun v hv => by
    obtain ⟨x, hx⟩ := live_iff.1 (h.designated_live (List.mem_append.1 hv))
    rw [ensure_ok_iff, hx]
    rfl

/-- No check of a linked graph finds that its records disagree or that something is missing. -/
theorem validate_flaw (h : g.Linked) {e : GraphError} (he : g.validate = .error e) :
    ∃ place flaw, e = .invalidGraph place flaw ∧ flaw.ofLinks = false := by
  unfold validate at he
  rw [except_bind_ok (operators_ok h)] at he
  cases hv : g.liveVariables.forM g.validateVariable with
  | error e' =>
    rw [hv] at he
    cases he
    obtain ⟨x, hx, hflaw⟩ := forM_error hv
    rw [validateVariable_eq h ((mem_liveVariables h).1 hx)] at hflaw
    obtain ⟨flaw, rfl, links, _⟩ := validateContent_flaw hflaw
    exact ⟨_, flaw, rfl, links⟩
  | ok u =>
    rw [hv, except_ok_bind, except_bind_ok (designations_ok h)] at he
    obtain ⟨place, rfl⟩ := validateOrder_flaw he
    exact ⟨place, .cycle, rfl, rfl⟩

/-- Of all checks, only that of the order finds a cycle. -/
theorem validateOrder_of_cycle (h : g.Linked) {place : Place}
    (found : g.validate = .error (.invalidGraph place .cycle)) :
    g.validateOrder = .error (.invalidGraph place .cycle) := by
  unfold validate at found
  rw [except_bind_ok (operators_ok h)] at found
  cases hv : g.liveVariables.forM g.validateVariable with
  | error e =>
    rw [hv] at found
    cases found
    obtain ⟨x, hx, hflaw⟩ := forM_error hv
    rw [validateVariable_eq h ((mem_liveVariables h).1 hx)] at hflaw
    obtain ⟨flaw, e, _, other⟩ := validateContent_flaw hflaw
    cases e
    exact absurd rfl other
  | ok u =>
    rwa [hv, except_ok_bind, except_bind_ok (designations_ok h)] at found

theorem validateOrder_ok_iff : g.validateOrder = .ok ⟨⟩ ↔ g.dependencies.isCyclic = false := by
  unfold validateOrder
  cases g.dependencies.isCyclic with
  | false => exact ⟨fun _ => rfl, fun _ => rfl⟩
  | true =>
    cases g.topologicalOrder with
    | error e => exact ⟨(nomatch ·), (nomatch ·)⟩
    | ok order => exact ⟨(nomatch ·), (nomatch ·)⟩

/-- A linked graph is valid if its variables are and no operators wait for each other. -/
theorem validate_iff (h : g.Linked) : g.validate = .ok ⟨⟩ ↔
    (∀ v x, g.variableAt? v = some x → g.ValidVariable x) ∧
      g.dependencies.isCyclic = false := by
  unfold validate
  rw [except_bind_ok (operators_ok h), except_bind_ok_iff, ← validateOrder_ok_iff]
  simp only [designations_ok h, except_ok_bind]
  have records : g.liveVariables.forM g.validateVariable = .ok ⟨⟩ ↔
      ∀ v x, g.variableAt? v = some x → g.ValidVariable x := by
    rw [forM_ok_iff]
    constructor
    · intro all v x hx
      have live : g.variableAt? x.id = some x := by rw [h.variable_id hx, hx]
      rw [← validateContent_iff, ← validateVariable_eq h live]
      exact all x ((mem_liveVariables h).2 live)
    · intro all x hx
      have live := (mem_liveVariables h).1 hx
      rw [validateVariable_eq h live, validateContent_iff]
      exact all x.id x live
  rw [← records]
  exact ⟨fun ⟨_, a, b⟩ => ⟨a, b⟩, fun ⟨a, b⟩ => ⟨_, a, b⟩⟩

end Graph

end TensorGraph
