import TensorGraph.Proofs.Pass.Collapse

/-!
# TensorGraph.Proofs.Pass.Sweep

One step at every operator.

* `StepRule`: what there is to prove about a step. At an operator it either finds nothing to do, or
  makes a change that keeps the outline sound and leaves nothing to do at that operator and at
  those before it.
* `visit_run`, `sweep_run`: then the whole pass succeeds and leaves nothing to do anywhere.
* `Graph.Tidy`: what holds of a graph between passes.
-/

namespace TensorGraph

variable {α : Type} [Scalar α]

open TensorGraph.Graph Edit

/-- A graph between two passes: linked and sound, and every variable in it is needed. -/
structure Graph.Tidy (g : Graph α) : Prop where
  linked : g.Linked
  sound : ∃ rank, g.outline.Sound rank
  needed : ∀ v, g.outline.Live v → g.outline.Needed v

/-- `Quiet O o` says that there is nothing to do at `o`, and `Change rank O o O'` that the step at
`o` makes `O'` of `O`. -/
structure StepRule (step : Operator α → PassReport → Edit α PassReport)
    (Quiet : Outline α → OperatorId → Prop)
    (Change : (OperatorId → Nat) → Outline α → OperatorId → Outline α → Prop) : Prop where
  dead : ∀ {O : Outline α} {o}, O.operators o = none → Quiet O o
  pruned : ∀ {O : Outline α} {o}, Quiet O o → Quiet O.pruned o
  idle : ∀ {g : Graph α} {rank o op} report, g.Linked → g.outline.Sound rank →
    g.operatorAt? o = some op → Quiet g.outline o → step op report g = .ok report g
  outcome : ∀ {g : Graph α} {rank o op} report, g.Linked → g.outline.Sound rank →
    g.operatorAt? o = some op → Quiet g.outline o ∨ ∃ report' O', report'.changed = true ∧
      Yields (step op report) g report' O' ∧ Change rank g.outline o O'
  sound : ∀ {g : Graph α} {rank o O'}, g.Linked → g.outline.Sound rank →
    Change rank g.outline o O' → O'.Sound rank
  keeps : ∀ {g : Graph α} {rank o O'}, g.Linked → g.outline.Sound rank →
    Change rank g.outline o O' → g.outline.Keeps O'
  settles : ∀ {g : Graph α} {rank o O'}, g.Linked → g.outline.Sound rank →
    Change rank g.outline o O' → (∀ q, rank q < rank o → Quiet g.outline q) →
    ∀ q, rank q < rank o ∨ q = o → Quiet O' q

/-- A property of outlines that changes of some kind keep. -/
def Stable (Change : (OperatorId → Nat) → Outline α → OperatorId → Outline α → Prop)
    (J : Outline α → Prop) : Prop :=
  ∀ {g : Graph α} {rank o O'}, g.Linked → g.outline.Sound rank → Change rank g.outline o O' →
    J g.outline → J O'

/-- A property of the operators visited so far and the outline that they leave. A visit keeps it,
and so does a change at an operator that was not visited yet. -/
structure Traced (Change : (OperatorId → Nat) → Outline α → OperatorId → Outline α → Prop)
    (J : List OperatorId → Outline α → Prop) : Prop where
  visited : ∀ {done O} o, J done O → J (done ++ [o]) O
  changed : ∀ {g : Graph α} {rank done o O'}, g.Linked → g.outline.Sound rank → o ∉ done →
    Change rank g.outline o O' → J done g.outline → J (done ++ [o]) O'

theorem Stable.traced {Change : (OperatorId → Nat) → Outline α → OperatorId → Outline α → Prop}
    {J : Outline α → Prop} (h : Stable Change J) : Traced Change fun _ => J where
  visited _ hJ := hJ
  changed linked sound _ change hJ := h linked sound change hJ

theorem eq_of_idxOf {order : List OperatorId} {q o : OperatorId} (ho : o ∈ order)
    (e : order.idxOf q = order.idxOf o) : q = o := by
  have hq : q ∈ order := List.idxOf_lt_length_iff.1 (e ▸ List.idxOf_lt_length_iff.2 ho)
  exact (List.idxOf_inj hq).1 e

/-- Where an operator stands in an order without repetition. -/
theorem idxOf_middle {earlier later : List OperatorId} {o : OperatorId}
    (nodup : (earlier ++ o :: later).Nodup) : (earlier ++ o :: later).idxOf o = earlier.length := by
  have fresh : o ∉ earlier := fun ho =>
    (List.nodup_append.1 nodup).2.2 o ho o List.mem_cons_self rfl
  rw [List.idxOf_append_of_notMem fresh, List.idxOf_cons_self, Nat.add_zero]

section

variable {step : Operator α → PassReport → Edit α PassReport}
  {Quiet : Outline α → OperatorId → Prop}
  {Change : (OperatorId → Nat) → Outline α → OperatorId → Outline α → Prop}

/-- What visiting operators makes of a graph, after those in `done`. -/
structure Visited (Quiet : Outline α → OperatorId → Prop)
    (Change : (OperatorId → Nat) → Outline α → OperatorId → Outline α → Prop)
    (done order : List OperatorId) (g g' : Graph α) : Prop where
  linked : g'.Linked
  sound : g'.outline.Sound order.idxOf
  keeps : g.outline.Keeps g'.outline
  quiet : ∀ q ∈ order, Quiet g'.outline q
  traced : ∀ J, Traced Change J → J done g.outline → J order g'.outline

/-- A visit of the last operators of an order, after which nothing is left to do at those before
them. The places in the order are ranks. -/
theorem visit_run (rule : StepRule step Quiet Change) {order : List OperatorId}
    (nodup : order.Nodup) (earlier later : List OperatorId) (e : order = earlier ++ later)
    {g : Graph α} (linked : g.Linked) (sound : g.outline.Sound order.idxOf)
    (quiet : ∀ q, order.idxOf q < earlier.length → Quiet g.outline q) (report : PassReport) :
    ∃ report' g', Pass.visit step report later g = .ok report' g' ∧
      Visited Quiet Change earlier order g g' ∧
      (report'.changed = true ∨ report' = report ∧ g' = g) := by
  induction later generalizing earlier g report with
  | nil =>
    rw [List.append_nil] at e
    subst e
    exact ⟨report, g, rfl, ⟨linked, sound, keeps_refl linked,
      fun q hq => quiet q (List.idxOf_lt_length_iff.2 hq), fun J _ hJ => hJ⟩, .inr ⟨rfl, rfl⟩⟩
  | cons o later ih =>
    have place : order.idxOf o = earlier.length := by
      subst e
      exact idxOf_middle nodup
    have mem : o ∈ order := e ▸ List.mem_append_right _ List.mem_cons_self
    have split {q : OperatorId} (hq : order.idxOf q < (earlier ++ [o]).length) :
        order.idxOf q < order.idxOf o ∨ q = o := by
      rw [List.length_append, List.length_singleton] at hq
      by_cases same : order.idxOf q = order.idxOf o
      · exact .inr (eq_of_idxOf mem same)
      · exact .inl (by omega)
    have e' : order = (earlier ++ [o]) ++ later := by rw [e]; simp
    have fresh : o ∉ earlier := fun ho =>
      (List.nodup_append.1 (e ▸ nodup)).2.2 o ho o List.mem_cons_self rfl
    -- Where nothing happens at `o`, the rest of the visit is that of the same graph.
    have idle (hq : Quiet g.outline o) : ∃ report' g', Pass.visit step report later g =
        .ok report' g' ∧ Visited Quiet Change earlier order g g' ∧
        (report'.changed = true ∨ report' = report ∧ g' = g) := by
      obtain ⟨report', g', run, visited, outcome⟩ :=
        ih (earlier ++ [o]) e' linked sound (fun q hlt => by
          rcases split hlt with lt | rfl
          · exact quiet q (place ▸ lt)
          · exact hq) report
      exact ⟨report', g', run, { visited with
        traced := fun J traced hJ => visited.traced J traced (traced.visited o hJ) }, outcome⟩
    have first : (get : Edit α (Graph α)) g = .ok g g := rfl
    cases ho : g.operatorAt? o with
    | none =>
      obtain ⟨report', g', run, rest⟩ := idle (rule.dead ho)
      exact ⟨report', g', by rw [Pass.visit, run_bind_ok first, ho]; exact run, rest⟩
    | some op =>
      rcases rule.outcome report linked sound ho with hq | ⟨report₁, O₁, changed, yields, change⟩
      · obtain ⟨report', g', run, rest⟩ := idle hq
        refine ⟨report', g', ?_, rest⟩
        rw [Pass.visit, run_bind_ok first, ho]
        exact (run_bind_ok (rule.idle report linked sound ho hq)).trans run
      · obtain ⟨g₁, run₁, linked₁, rfl⟩ := yields
        obtain ⟨report', g', run, visited, outcome⟩ := ih (earlier ++ [o]) e' linked₁
          (rule.sound linked sound change) (fun q hlt => rule.settles linked sound change
            (fun p lt => quiet p (place ▸ lt)) q (split hlt)) report₁
        refine ⟨report', g', ?_, ⟨visited.linked, visited.sound,
          (rule.keeps linked sound change).trans visited.keeps, visited.quiet, fun J traced hJ =>
            visited.traced J traced (traced.changed linked sound fresh change hJ)⟩, .inl ?_⟩
        · rw [Pass.visit, run_bind_ok first, ho]
          exact (run_bind_ok run₁).trans run
        · rcases outcome with h | ⟨rfl, _⟩
          · exact h
          · exact changed

theorem visit_idle (rule : StepRule step Quiet Change) {g : Graph α} (linked : g.Linked)
    {rank : OperatorId → Nat} (sound : g.outline.Sound rank)
    (quiet : ∀ q, Quiet g.outline q) (report : PassReport) (order : List OperatorId) :
    Pass.visit step report order g = .ok report g := by
  induction order with
  | nil => rfl
  | cons o rest ih =>
    have first : (get : Edit α (Graph α)) g = .ok g g := rfl
    rw [Pass.visit, run_bind_ok first]
    cases ho : g.operatorAt? o with
    | none => exact ih
    | some op => exact (run_bind_ok (rule.idle report linked sound ho (quiet o))).trans ih

theorem schedule_run {g : Graph α} (h : g.Tidy) : ∃ order,
    Pass.schedule g = .ok order g ∧ g.outline.Sorted order ∧ g.outline.Sound order.idxOf := by
  obtain ⟨rank, sound⟩ := h.sound
  obtain ⟨order, found⟩ := topologicalOrder_of_ranked h.linked sound.ranked
  have sorted := topologicalOrder_sorted h.linked found
  refine ⟨order, ?_, sorted, { sound with ranked := sorted.ranked }⟩
  have first : (get : Edit α (Graph α)) g = .ok g g := rfl
  rw [Pass.schedule, run_bind_ok first, found]
  rfl

/-- What a pass makes of a graph. -/
structure Swept (Quiet : Outline α → OperatorId → Prop)
    (Change : (OperatorId → Nat) → Outline α → OperatorId → Outline α → Prop)
    (g g' : Graph α) : Prop where
  tidy : g'.Tidy
  keeps : g.outline.Keeps g'.outline
  quiet : ∀ q, Quiet g'.outline q
  traced : ∀ J, Traced Change J → (∀ done O, J done O → J done O.pruned) → J [] g.outline →
    ∃ done, J done g'.outline

theorem Swept.stable {g g' : Graph α} (h : Swept Quiet Change g g') (J : Outline α → Prop)
    (stable : Stable Change J) (pruned : ∀ O, J O → J O.pruned) (hJ : J g.outline) :
    J g'.outline := by
  obtain ⟨_, after⟩ := h.traced (fun _ => J) stable.traced (fun _ => pruned) hJ
  exact after

theorem sweep_run (rule : StepRule step Quiet Change) {g : Graph α} (h : g.Tidy) :
    ∃ report g', Pass.sweep step g = .ok report g' ∧ Swept Quiet Change g g' ∧
      (report.changed = false → report = .nothing ∧ g' = g) := by
  obtain ⟨order, schedule, sorted, sound⟩ := schedule_run h
  obtain ⟨report, g₁, run, visited, outcome⟩ := visit_run rule sorted.nodup [] order rfl h.linked
    sound (fun _ lt => absurd lt (Nat.not_lt_zero _)) .nothing
  have unfolded : Pass.sweep step g = Pass.tidyUp report g₁ := by
    rw [Pass.sweep, run_bind_ok schedule, run_bind_ok run]
  have quiet : ∀ q, Quiet g₁.outline q := fun q => by
    cases hq : g₁.outline.operators q with
    | none => exact rule.dead hq
    | some op =>
      obtain ⟨op', hop⟩ := visited.keeps.operators q op hq
      exact visited.quiet q ((sorted.mem_iff q).2 ⟨op', hop⟩)
  cases changed : report.changed with
  | false =>
    rcases outcome with h' | ⟨rfl, rfl⟩
    · rw [changed] at h'
      cases h'
    · refine ⟨_, g₁, ?_, ⟨h, visited.keeps, quiet,
        fun J traced _ hJ => ⟨order, visited.traced J traced hJ⟩⟩, fun _ => ⟨rfl, rfl⟩⟩
      rw [unfolded, Pass.tidyUp, changed]
      rfl
  | true =>
    obtain ⟨n, g', run', linked', outline'⟩ := prune_yields visited.linked
    refine ⟨report, g', ?_, ⟨⟨linked', ⟨order.idxOf, ?_⟩, fun v live => ?_⟩, ?_, fun q => ?_,
      fun J traced pruned hJ => ⟨order, ?_⟩⟩,
      fun h' => absurd (h'.symm.trans changed) (nomatch ·)⟩
    · rw [unfolded, Pass.tidyUp, changed, if_pos rfl, run_bind_ok (run_discard run')]
      rfl
    · rw [outline']
      exact visited.sound.pruned
    · rw [outline'] at live ⊢
      exact Outline.pruned_needed live
    · rw [outline']
      exact visited.keeps.pruned
    · rw [outline']
      exact rule.pruned (quiet q)
    · rw [outline']
      exact pruned order _ (visited.traced J traced hJ)

theorem sweep_idle (rule : StepRule step Quiet Change) {g : Graph α} (h : g.Tidy)
    (quiet : ∀ q, Quiet g.outline q) : Pass.sweep step g = .ok .nothing g := by
  obtain ⟨order, schedule, _, sound⟩ := schedule_run h
  rw [Pass.sweep, run_bind_ok schedule,
    run_bind_ok (visit_idle rule h.linked sound quiet _ order)]
  rfl

end

end TensorGraph
