import TensorGraph.Proofs.Optimizer.Rounds
import TensorGraph.Proofs.Pass.Report

/-!
# TensorGraph.Proofs.Optimizer.Reports

What the optimizer makes of the reports of its passes.

* `round_grows`: the report of a round is what the passes in it report, put together, and it tells
  what the round made of the graph.
* `Rounds`: rounds one after the other, with their reports.
* `rounds_logged`: the optimizer runs rounds until one reports no change, or until there are as
  many as it may run.
* `optimize_reports`: no report of a pass, of a round or of a whole run says anything wrong.
-/

namespace TensorGraph

variable {α : Type} [Scalar α] {g g' g₁ : Graph α} {ps : List (Pass α)} {s s' s₁ : Snapshots}

open TensorGraph.Graph Edit Pass PassReport

/-! ## A round -/

theorem run_of_runChecked {p : Pass α} {report : PassReport}
    (checked : runChecked p g = .ok (g₁, report)) : p.run g = .ok report g₁ := by
  unfold runChecked at checked
  split at checked
  · cases checked
  · next report' g' run =>
    split at checked
    · cases checked
    · cases checked
      exact run

/-- The first pass of a round that succeeds. No snapshot is taken if it changes nothing. -/
theorem round_cons_ok {p : Pass α} {total : PassReport} {x : Graph α × PassReport}
    (run : round (p :: ps) g total s = .ok x s') : ∃ report g₁ s₁, p.run g = .ok report g₁ ∧
      round ps g₁ (total.merge report) s₁ = .ok x s' ∧ (report.changed = false → s₁ = s) := by
  cases checked : runChecked p g with
  | error e =>
    obtain ⟨_, _, lifted, _⟩ := run_bind_ok_iff.1 run
    rw [checked] at lifted
    cases lifted
  | ok result =>
    obtain ⟨g₁, report⟩ := result
    obtain ⟨s₁, unfolded, same⟩ := round_cons_checked ps checked total s
    exact ⟨report, g₁, s₁, run_of_runChecked checked, unfolded ▸ run, same⟩

/-- What a round reports tells what it made of the graph, and it takes snapshots of changes only. -/
theorem round_grows (known : ∀ p ∈ ps, p ∈ Pass.all) (h : g.Linked) {total report : PassReport}
    (run : round ps g total s = .ok (g', report) s') :
    Grows total report g g' ∧ (report.changed = false → s' = s) := by
  -- A round carries along what was reported before it, so the report is general here.
  induction ps generalizing g total s with
  | nil =>
    cases run
    exact ⟨.refl h _, fun _ => rfl⟩
  | cons p rest ih =>
    obtain ⟨hp, known⟩ := List.forall_mem_cons.1 known
    obtain ⟨r, g₁, s₁, first, run, same⟩ := round_cons_ok run
    have accounts : r.Accounts g g₁ := pass_accounts hp h r g₁ first
    obtain ⟨grown, idle⟩ := ih known accounts.linked run
    refine ⟨.trans ⟨r, rfl, accounts⟩ grown, fun unchanged => ?_⟩
    rw [idle unchanged]
    obtain ⟨later, rfl, _⟩ := grown
    have quiet : ((total.changed || r.changed) || later.changed) = false := unchanged
    simp only [Bool.or_eq_false_iff] at quiet
    exact same quiet.1.2

theorem round_accounts (known : ∀ p ∈ ps, p ∈ Pass.all) (h : g.Linked) {report : PassReport}
    (run : round ps g .nothing s = .ok (g', report) s') : report.Accounts g g' := by
  obtain ⟨⟨r, rfl, accounts⟩, _⟩ := round_grows known h run
  rwa [nothing_merge]

/-! ## Rounds -/

/-- Reports put together. -/
def PassReport.total (reports : List PassReport) : PassReport := reports.foldr merge nothing

/-- Rounds over some passes, one after the other, with what each of them reports. -/
inductive Rounds (ps : List (Pass α)) :
    Graph α → Snapshots → List PassReport → Graph α → Snapshots → Prop where
  | none {g : Graph α} {s : Snapshots} : Rounds ps g s [] g s
  | next {g g₁ g' : Graph α} {s s₁ s' : Snapshots} {report : PassReport}
      {reports : List PassReport} : round ps g .nothing s = .ok (g₁, report) s₁ →
      Rounds ps g₁ s₁ reports g' s' → Rounds ps g s (report :: reports) g' s'

theorem Rounds.accounts {reports : List PassReport} (h : Rounds ps g s reports g' s')
    (known : ∀ p ∈ ps, p ∈ Pass.all) (linked : g.Linked) : (total reports).Accounts g g' := by
  induction h with
  | none => exact accounts_nothing linked
  | next first _ ih =>
    have accounts := round_accounts known linked first
    exact accounts.merge (ih accounts.linked)

/-- A last round that reports no change has left the graph as it was. -/
theorem Rounds.last_idle {reports : List PassReport} (h : Rounds ps g s reports g' s')
    (known : ∀ p ∈ ps, p ∈ Pass.all) (linked : g.Linked) {last : PassReport}
    (ends : reports.getLast? = some last) (unchanged : last.changed = false) :
    round ps g' .nothing s' = .ok (g', last) s' := by
  induction h with
  | none => cases ends
  | @next g g₁ g' s s₁ s' report reports first rest ih =>
    cases reports with
    | nil =>
      cases rest
      cases ends
      have same := (round_accounts known linked first).tells.unchanged_iff.1 unchanged
      obtain ⟨_, idle⟩ := round_grows known linked first
      cases same
      cases idle unchanged
      exact first
    | cons r reports => exact ih (round_accounts known linked first).linked ends

/-- The rounds that the optimizer runs: all but the last one report a change, and there are as many
as there may be or the last one reports none. -/
theorem rounds_logged {n : Nat} (run : rounds ps n g s = .ok g' s') : ∃ reports,
    Rounds ps g s reports g' s' ∧ reports.length ≤ n ∧
      (∀ r ∈ reports.dropLast, r.changed = true) ∧
      (reports.length < n → ∃ last, reports.getLast? = some last ∧ last.changed = false) := by
  induction n generalizing g s with
  | zero =>
    cases run
    exact ⟨[], .none, Nat.le_refl 0, nofun, nofun⟩
  | succ n ih =>
    obtain ⟨⟨g₁, report⟩, s₁, first, _⟩ := run_bind_ok_iff.1 run
    rw [rounds_succ _ n first] at run
    split at run
    · next changed =>
      obtain ⟨reports, logged, few, changing, stops⟩ := ih run
      refine ⟨report :: reports, .next first logged, Nat.succ_le_succ few, ?_, ?_⟩
      · cases reports with
        | nil => nofun
        | cons r rest => exact List.forall_mem_cons.2 ⟨changed, changing⟩
      · intro fewer
        obtain ⟨last, ends, idle⟩ := stops (Nat.lt_of_succ_lt_succ fewer)
        exact ⟨last, by rw [List.getLast?_cons, ends]; rfl, idle⟩
    · next unchanged =>
      cases run
      exact ⟨[report], .next first .none, Nat.succ_le_succ (Nat.zero_le n), nofun,
        fun _ => ⟨report, rfl, by simpa using unchanged⟩⟩

theorem exists_ok {ε σ β : Type} {x : β} {result : EStateM.Result ε σ β}
    (h : (match result with | .ok y _ => some y | .error _ _ => none) = some x) :
    ∃ s, result = .ok x s := by
  cases result with
  | ok y s =>
    cases h
    exact ⟨s, rfl⟩
  | error e s => cases h

/-- No report says anything wrong: not that of a pass, not that of a round, and not those of all
rounds of a run put together. A run ends with the first round that changes nothing, unless it has
had all the rounds it may have. -/
theorem Graph.optimize_reports {g : Graph α} (h : g.Reachable) :
    (∀ p ∈ Pass.all, ∀ report g', p.run g = .ok report g' → report.Tells g g') ∧
    (∀ options s report g' s', round (Pass.enabled options) g .nothing s = .ok (g', report) s' →
      report.Tells g g') ∧
    ∀ (options : OptimizerOptions) s g' s', g.optimize options s = .ok g' s' →
      ∃ reports, Rounds (Pass.enabled options) g s reports g' s' ∧
        (PassReport.total reports).Tells g g' ∧ reports.length ≤ options.maxRounds ∧
        (∀ report ∈ reports.dropLast, report.changed = true) ∧
        (reports.length < options.maxRounds → ∃ last, reports.getLast? = some last ∧
          last.changed = false ∧
          round (Pass.enabled options) g' .nothing s' = .ok (g', last) s') := by
  have known (options : OptimizerOptions) : ∀ p ∈ Pass.enabled options, p ∈ (Pass.all (α := α)) :=
    fun p hp => (List.mem_filter.1 hp).1
  refine ⟨fun p hp report g' run => (pass_accounts hp h.linked report g' run).tells,
    fun options s report g' s' run => (round_accounts (known options) h.linked run).tells,
    fun options s g' s' run => ?_⟩
  obtain ⟨reports, logged, few, changing, stops⟩ := rounds_logged run
  refine ⟨reports, logged, (logged.accounts (known options) h.linked).tells, few, changing,
    fun fewer => ?_⟩
  obtain ⟨last, ends, unchanged⟩ := stops fewer
  exact ⟨last, ends, unchanged, logged.last_idle (known options) h.linked ends unchanged⟩

/-- A sum of two sums, and a variable beside them that nothing reads. -/
def Graph.nestedSums : Graph Binary32 :=
  afterCalls .empty
    [.addVariable "x" [2], .addVariable "y" [2], .addVariable "z" [2], .addVariable "w" [2],
      .addVariable "u" [2], .addOperator (.elementwiseAdd none) [⟨0⟩, ⟨0⟩] [⟨1⟩],
      .addOperator (.elementwiseAdd none) [⟨0⟩, ⟨0⟩] [⟨2⟩],
      .addOperator (.elementwiseAdd none) [⟨1⟩, ⟨2⟩] [⟨3⟩], .designateInputs [⟨0⟩],
      .designateOutputs [⟨3⟩]]

/-- Merging comes first, then fusion, then dead code removal. -/
def OptimizerOptions.mergingFirst : OptimizerOptions :=
  ⟨8, ["normalize_layout", "constant_folding"]⟩

/-- The sums become one, and a last round finds nothing to do. Dead code removal alone takes the
variable out, which changes the graph although no operator goes. -/
theorem Graph.optimize_reports_nestedSums : nestedSums.Reachable ∧
    (∃ g', elementwiseMerging.run nestedSums = .ok ⟨true, 1, 2⟩ g' ∧ g'.operatorCount = 1) ∧
    (∃ g', deadCodeRemoval.run nestedSums = .ok ⟨true, 0, 0⟩ g' ∧ g'.operatorCount = 3 ∧
      g' ≠ nestedSums) ∧
    ∃ g' s' reports, nestedSums.optimize .mergingFirst .unwanted = .ok g' s' ∧
      g'.operatorCount = 1 ∧ (PassReport.total reports).erased = 2 ∧
      ∃ last, reports.getLast? = some last ∧
        round (Pass.enabled .mergingFirst) g' .nothing s' = .ok (g', last) s' := by
  have reachable : nestedSums.Reachable := Reachable.empty.afterCalls _
  have count : nestedSums.operatorCount = 3 := by decide +kernel
  obtain ⟨pass_tells, _, run_tells⟩ := optimize_reports reachable
  refine ⟨reachable, ?_, ?_, ?_⟩
  · obtain ⟨g', run⟩ : ∃ g', elementwiseMerging.run nestedSums = .ok ⟨true, 1, 2⟩ g' :=
      exists_ok (by decide +kernel)
    have erased : g'.operatorCount + 2 = _ := (pass_tells _ (by simp [Pass.all]) _ g' run).erased
    exact ⟨g', run, by omega⟩
  · obtain ⟨g', run⟩ : ∃ g', deadCodeRemoval.run nestedSums = .ok ⟨true, 0, 0⟩ g' :=
      exists_ok (by decide +kernel)
    have tells := pass_tells _ (by simp [Pass.all]) _ g' run
    exact ⟨g', run, tells.erased.trans count, fun same => nomatch tells.unchanged_iff.2 same⟩
  · have counted : (match nestedSums.optimize .mergingFirst .unwanted with
        | .ok g' _ => g'.operatorCount
        | .error _ _ => 0) = 1 := by decide +kernel
    have settled : (match round (Pass.enabled .mergingFirst) nestedSums .nothing .unwanted with
        | .ok (g₁, _) s₁ =>
          match round (Pass.enabled .mergingFirst) g₁ .nothing s₁ with
          | .ok (_, report) _ => report.changed
          | .error _ _ => true
        | .error _ _ => true) = false := by decide +kernel
    cases run : nestedSums.optimize .mergingFirst .unwanted with
    | error e s' =>
      rw [run] at counted
      cases counted
    | ok g' s' =>
      rw [run] at counted
      obtain ⟨reports, logged, tells, _, changing, stops⟩ := run_tells _ _ g' s' run
      have few : reports.length < 8 := by
        cases logged with
        | none => decide
        | next first rest =>
          cases rest with
          | none => simp
          | @next _ _ _ _ _ _ report reports second rest =>
            rw [first] at settled
            dsimp only at settled
            rw [second] at settled
            cases reports with
            | nil => simp
            | cons _ _ => exact nomatch (changing report (by simp)).symm.trans settled
      obtain ⟨last, ends, _, again⟩ := stops few
      have erased := tells.erased
      dsimp only at counted
      exact ⟨g', s', reports, rfl, counted, by omega, last, ends, again⟩

end TensorGraph
