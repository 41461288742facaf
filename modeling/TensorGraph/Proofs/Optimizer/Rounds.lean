import TensorGraph.Proofs.Optimizer.Calls
import TensorGraph.Proofs.Pass.DeadCode
import TensorGraph.Proofs.Pass.Folding
import TensorGraph.Proofs.Pass.Merging

/-!
# TensorGraph.Proofs.Optimizer.Rounds

The passes of the optimizer and the rounds over them.

* `PassKind`: one of the passes, with what it leaves nothing to do for.
* `PassKind.run`: a pass on a tidy graph succeeds, and leaves it tidy and with nothing to do.
* `round_run`, `rounds_run`: so rounds succeed as well, and with them the checks between passes.
* `rounds_stable`: what every change of a pass keeps, the rounds keep.
-/

namespace TensorGraph

variable {α : Type} [Scalar α]

open TensorGraph.Graph Pass

/-- The passes by name. -/
inductive PassKind where
  | canonical
  | folding
  | merging
  | affine
  | activation
  | deadCode
  deriving DecidableEq

namespace PassKind

def all : List PassKind := [canonical, folding, merging, affine, activation, deadCode]

def pass : PassKind → Pass α
  | canonical => canonicalLayout
  | folding => constantFolding
  | merging => elementwiseMerging
  | affine => affineFusion
  | activation => activationFusion
  | deadCode => deadCodeRemoval

/-- There is nothing to do at an operator. -/
def Quiet : PassKind → Outline α → OperatorId → Prop
  | canonical => CanonicalQuiet
  | folding => FoldQuiet
  | merging => MergeQuiet
  | affine => AffineQuiet
  | activation => ActivationQuiet
  | deadCode => fun _ _ => True

/-- What a step at an operator does, if it does something. -/
def Change : PassKind → (OperatorId → Nat) → Outline α → OperatorId → Outline α → Prop
  | canonical => CanonicalChange
  | folding => FoldChange
  | merging => MergeChange
  | affine => AffineChange
  | activation => ActivationChange
  | deadCode => fun _ _ _ _ => False

def Settled (k : PassKind) (O : Outline α) : Prop := ∀ q, k.Quiet O q

theorem pass_mem (k : PassKind) : (k.pass : Pass α) ∈ Pass.all := by
  cases k <;> simp [Pass.all, pass]

theorem run (k : PassKind) {g : Graph α} (h : g.Tidy) : ∃ report g', k.pass.run g = .ok report g' ∧
    Swept k.Quiet k.Change g g' ∧ (report.changed = false → report = .nothing ∧ g' = g) := by
  cases k with
  | canonical => exact sweep_run canonicalStep_rule h
  | folding => exact sweep_run foldStep_rule h
  | merging => exact sweep_run mergeStep_rule h
  | affine => exact sweep_run fuseAffineStep_rule h
  | activation => exact sweep_run fuseActivationStep_rule h
  | deadCode =>
    exact ⟨.nothing, g, removeDead_idle h,
      ⟨h, keeps_refl h.linked, fun _ => trivial, fun _ _ _ hJ => ⟨[], hJ⟩⟩,
      fun _ => ⟨rfl, rfl⟩⟩

theorem idle (k : PassKind) {g : Graph α} (h : g.Tidy) (settled : k.Settled g.outline) :
    k.pass.run g = .ok .nothing g := by
  cases k with
  | canonical => exact sweep_idle canonicalStep_rule h settled
  | folding => exact sweep_idle foldStep_rule h settled
  | merging => exact sweep_idle mergeStep_rule h settled
  | affine => exact sweep_idle fuseAffineStep_rule h settled
  | activation => exact sweep_idle fuseActivationStep_rule h settled
  | deadCode => exact removeDead_idle h

theorem Settled.pruned {k : PassKind} {O : Outline α} (h : k.Settled O) : k.Settled O.pruned := by
  cases k with
  | canonical => exact fun q => canonicalStep_rule.pruned (h q)
  | folding => exact fun q => foldStep_rule.pruned (h q)
  | merging => exact fun q => mergeStep_rule.pruned (h q)
  | affine => exact fun q => fuseAffineStep_rule.pruned (h q)
  | activation => exact fun q => fuseActivationStep_rule.pruned (h q)
  | deadCode => exact h

/-- The passes that options leave, by name. -/
def enabled (options : OptimizerOptions) : List PassKind :=
  all.filter fun k => !options.disabled.contains (k.pass (α := Binary32)).name

theorem name_eq (k : PassKind) : (k.pass : Pass α).name = (k.pass (α := Binary32)).name := by
  cases k <;> rfl

theorem enabled_eq (options : OptimizerOptions) :
    Pass.enabled options = (enabled options).map (pass (α := α)) := by
  have same : (Pass.all : List (Pass α)) = all.map pass := rfl
  rw [Pass.enabled, same, List.filter_map, enabled]
  congr 2
  funext k
  simp only [Function.comp, name_eq]

end PassKind

theorem Graph.Tidy.check {g : Graph α} (h : g.Tidy) : g.check = .ok ⟨⟩ := by
  obtain ⟨rank, sound⟩ := h.sound
  exact check_of_sound h.linked sound h.needed

theorem runChecked_of_run (k : PassKind) {g g' : Graph α} {report : PassReport}
    (run : k.pass.run g = .ok report g') (h : g'.Tidy) :
    runChecked k.pass g = .ok (g', report) := by
  simp only [runChecked, run, h.check]

/-- One pass of a round. No snapshot is taken if it changes nothing. -/
theorem round_cons_checked {p : Pass α} (rest : List (Pass α)) {g g' : Graph α}
    {report : PassReport} (checked : runChecked p g = .ok (g', report)) (total : PassReport)
    (s : Snapshots) : ∃ s', round (p :: rest) g total s = round rest g' (total.merge report) s' ∧
      (report.changed = false → s' = s) := by
  have lifted : Recorded.lift (runChecked p g) s = .ok (g', report) s := by
    rw [checked]
    rfl
  have unfolded : round (p :: rest) g total s = (do
      if report.changed then Recorded.snapshot ("after " ++ p.name) g'
      round rest g' (total.merge report)) s := Edit.run_bind_ok lifted
  rw [unfolded]
  cases report.changed with
  | false => exact ⟨s, rfl, fun _ => rfl⟩
  | true => exact ⟨_, rfl, (nomatch ·)⟩

theorem round_cons (k : PassKind) (rest : List (Pass α)) {g g' : Graph α} {report : PassReport}
    (run : k.pass.run g = .ok report g') (h : g'.Tidy) (total : PassReport) (s : Snapshots) :
    ∃ s', round (k.pass :: rest) g total s = round rest g' (total.merge report) s' ∧
      (report.changed = false → s' = s) :=
  round_cons_checked rest (runChecked_of_run k run h) total s

/-- What passes make of a graph. -/
structure Advanced (l : List PassKind) (g g' : Graph α) : Prop where
  tidy : g'.Tidy
  keeps : g.outline.Keeps g'.outline
  reachable : g.Reachable → g'.Reachable
  stable : ∀ J, (∀ k ∈ l, Stable k.Change J) → (∀ O, J O → J O.pruned) → J g.outline → J g'.outline
  settled : ∀ P : PassKind → Prop,
    l.Pairwise (fun k k' => P k → Stable (α := α) k'.Change k.Settled) →
    ∀ k ∈ l, P k → k.Settled g'.outline

theorem round_run (l : List PassKind) {g : Graph α} (h : g.Tidy) (total : PassReport)
    (s : Snapshots) : ∃ g' report s', round (l.map PassKind.pass) g total s = .ok (g', report) s' ∧
      Advanced l g g' ∧ (report.changed = false → total.changed = false ∧ g' = g ∧ s' = s ∧
        ∀ k ∈ l, k.Settled g.outline) := by
  induction l generalizing g total s with
  | nil =>
    exact ⟨g, total, s, rfl, ⟨h, keeps_refl h.linked, id, fun _ _ _ hJ => hJ,
      fun _ _ _ hk => nomatch hk⟩, fun hc => ⟨hc, rfl, rfl, fun _ hk => nomatch hk⟩⟩
  | cons k rest ih =>
    obtain ⟨report₁, g₁, run₁, swept, idle₁⟩ := k.run h
    obtain ⟨s₁, unfolded, same₁⟩ := round_cons k (rest.map PassKind.pass) run₁ swept.tidy total s
    obtain ⟨g', report, s', run, advanced, idle⟩ := ih swept.tidy (total.merge report₁) s₁
    refine ⟨g', report, s', unfolded.trans run, ⟨advanced.tidy, swept.keeps.trans advanced.keeps,
      fun reachable => advanced.reachable ?_, fun J stable pruned hJ => ?_,
      fun P pairwise k' hk' hP => ?_⟩, fun unchanged => ?_⟩
    · have after := pass_reaches k.pass_mem g reachable
      rw [Edit.after, run₁] at after
      exact after
    · exact advanced.stable J (fun k' hk' => stable k' (List.mem_cons_of_mem k hk')) pruned
        (swept.stable J (stable k List.mem_cons_self) pruned hJ)
    · obtain ⟨first, others⟩ := List.pairwise_cons.1 pairwise
      rcases List.mem_cons.1 hk' with rfl | hk'
      · exact advanced.stable _ (fun k'' hk'' => first k'' hk'' hP)
          (fun _ => PassKind.Settled.pruned) swept.quiet
      · exact advanced.settled P others k' hk' hP
    · obtain ⟨merged, rfl, rfl, settled⟩ := idle unchanged
      obtain ⟨none_total, none_first⟩ := Bool.or_eq_false_iff.1 merged
      obtain ⟨_, rfl⟩ := idle₁ none_first
      refine ⟨none_total, rfl, same₁ none_first, fun k' hk' => ?_⟩
      rcases List.mem_cons.1 hk' with rfl | hk'
      · exact swept.quiet
      · exact settled k' hk'

theorem round_idle (l : List PassKind) {g : Graph α} (h : g.Tidy)
    (settled : ∀ k ∈ l, k.Settled g.outline) (total : PassReport) (s : Snapshots) :
    round (l.map PassKind.pass) g total s = .ok (g, total) s := by
  induction l with
  | nil => rfl
  | cons k rest ih =>
    obtain ⟨s', unfolded, same⟩ := round_cons k (rest.map PassKind.pass)
      (k.idle h (settled k List.mem_cons_self)) h total s
    rw [List.map_cons, unfolded, same rfl, PassReport.merge_nothing]
    exact ih fun k' hk' => settled k' (List.mem_cons_of_mem k hk')

theorem rounds_succ (ps : List (Pass α)) (n : Nat) {g g' : Graph α} {report : PassReport}
    {s s' : Snapshots} (run : round ps g .nothing s = .ok (g', report) s') :
    rounds ps (n + 1) g s = if report.changed then rounds ps n g' s' else .ok g' s' := by
  rw [rounds, Edit.run_bind_ok run]
  show (if report.changed then rounds ps n g' else pure g' : Recorded (Graph α)) s' = _
  split <;> rfl

theorem rounds_idle (l : List PassKind) {g : Graph α} (h : g.Tidy)
    (settled : ∀ k ∈ l, k.Settled g.outline) (n : Nat) (s : Snapshots) :
    rounds (l.map PassKind.pass) n g s = .ok g s := by
  cases n with
  | zero => rfl
  | succ n => rw [rounds_succ _ n (round_idle l h settled .nothing s)]; rfl

theorem rounds_run (l : List PassKind) (n : Nat) {g : Graph α} (h : g.Tidy) (s : Snapshots) :
    ∃ g' s', rounds (l.map PassKind.pass) n g s = .ok g' s' ∧ g'.Tidy ∧
      g.outline.Keeps g'.outline ∧ (g.Reachable → g'.Reachable) := by
  induction n generalizing g s with
  | zero => exact ⟨g, s, rfl, h, keeps_refl h.linked, id⟩
  | succ n ih =>
    obtain ⟨g₁, report, s₁, run, advanced, _⟩ := round_run l h .nothing s
    rw [rounds_succ _ n run]
    cases report.changed with
    | false => exact ⟨g₁, s₁, rfl, advanced.tidy, advanced.keeps, advanced.reachable⟩
    | true =>
      obtain ⟨g', s', run', tidy, keeps, reachable⟩ := ih advanced.tidy s₁
      exact ⟨g', s', run', tidy, advanced.keeps.trans keeps, fun r =>
        reachable (advanced.reachable r)⟩

/-- What the passes keep stays through all rounds. -/
theorem rounds_stable {l : List PassKind} {J : Outline α → Prop}
    (stable : ∀ k ∈ l, Stable k.Change J) (pruned : ∀ O, J O → J O.pruned) {n : Nat}
    {g g' : Graph α} (h : g.Tidy) {s s' : Snapshots}
    (run : rounds (l.map PassKind.pass) n g s = .ok g' s') (hJ : J g.outline) : J g'.outline := by
  induction n generalizing g s with
  | zero =>
    cases run
    exact hJ
  | succ n ih =>
    obtain ⟨g₁, report, s₁, first, advanced, _⟩ := round_run l h .nothing s
    have hJ₁ : J g₁.outline := advanced.stable J stable pruned hJ
    rw [rounds_succ _ n first] at run
    split at run
    · exact ih advanced.tidy run hJ₁
    · cases run
      exact hJ₁

end TensorGraph
