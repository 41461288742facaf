import TensorGraph.Proofs.Pass.Canonical
import TensorGraph.Proofs.Pass.DeadCode
import TensorGraph.Proofs.Pass.Fusion
import TensorGraph.Proofs.Pass.Work
import TensorGraph.Optimizer

/-!
# TensorGraph.Proofs.Pass.Report

Passes report what they did.

* `PassReport.Tells`: a report is true of a change of the graph.
* `PassReport.Accounts`: a change that its report tells of makes the graph smaller. Such changes
  can follow one another, and then their reports are merged.
* `StepReports`, `sweep_accounts`: where every step adds to the report what it did, the pass
  reports what it did.
* `pass_accounts`: every pass does.

Nothing is asked of the graph but that its links agree.
-/

namespace TensorGraph

variable {α : Type} {g g' g₁ : Graph α} {op : Operator α} {report report' : PassReport}

open TensorGraph.Graph Edit Pass

/-! ## Reports -/

namespace PassReport

/-- The report says whether the graph changed and how many operators went, and no pattern was
applied without a change. -/
structure Tells (r : PassReport) (g g' : Graph α) : Prop where
  unchanged_iff : r.changed = false ↔ g' = g
  changed_of_applied : 0 < r.applied → r.changed = true
  erased : g'.operatorCount + r.erased = g.operatorCount

/-- The report tells of a change that makes the graph smaller, or of none. -/
structure Accounts (r : PassReport) (g g' : Graph α) : Prop where
  linked : g'.Linked
  changed_of_applied : 0 < r.applied → r.changed = true
  erased : g'.operatorCount + r.erased = g.operatorCount
  outcome : r.changed = false ∧ g' = g ∨ r.changed = true ∧ g'.size < g.size

theorem Accounts.tells {r : PassReport} (h : r.Accounts g g') : r.Tells g g' where
  unchanged_iff := by
    rcases h.outcome with ⟨unchanged, same⟩ | ⟨changed, smaller⟩
    · simp [unchanged, same]
    · have other : g' ≠ g := fun same => absurd (same ▸ smaller) (lt_irrefl _)
      simp [changed, other]
  changed_of_applied := h.changed_of_applied
  erased := h.erased

theorem accounts_nothing (h : g.Linked) : nothing.Accounts g g where
  linked := h
  changed_of_applied := nofun
  erased := rfl
  outcome := .inl ⟨rfl, rfl⟩

/-- What two changes make is no smaller than what they started from only if both did nothing. -/
theorem Accounts.merge {r r' : PassReport} (h : r.Accounts g g₁) (h' : r'.Accounts g₁ g') :
    (r.merge r').Accounts g g' where
  linked := h'.linked
  changed_of_applied applied := by
    show (r.changed || r'.changed) = true
    rcases Nat.eq_zero_or_pos r.applied with none | some
    · have : 0 < r'.applied := by simpa [PassReport.merge, none] using applied
      rw [h'.changed_of_applied this, Bool.or_true]
    · rw [h.changed_of_applied some, Bool.true_or]
  erased := by
    have := h.erased
    have := h'.erased
    show g'.operatorCount + (r.erased + r'.erased) = g.operatorCount
    omega
  outcome := by
    show (r.changed || r'.changed) = false ∧ _ ∨ (r.changed || r'.changed) = true ∧ _
    rcases h.outcome with ⟨e, rfl⟩ | ⟨e, smaller⟩ <;>
      rcases h'.outcome with ⟨e', rfl⟩ | ⟨e', smaller'⟩ <;> rw [e, e']
    · exact .inl ⟨rfl, rfl⟩
    · exact .inr ⟨rfl, smaller'⟩
    · exact .inr ⟨rfl, smaller⟩
    · exact .inr ⟨rfl, smaller'.trans smaller⟩

/-- What comes to a report on the way from `g` to `g'` accounts for the way. -/
def Grows (report report' : PassReport) (g g' : Graph α) : Prop :=
  ∃ r : PassReport, report' = report.merge r ∧ r.Accounts g g'

theorem Grows.refl (h : g.Linked) (report : PassReport) : Grows report report g g :=
  ⟨nothing, (merge_nothing report).symm, accounts_nothing h⟩

theorem Grows.trans {report₁ : PassReport} (h : Grows report report₁ g g₁)
    (h' : Grows report₁ report' g₁ g') : Grows report report' g g' := by
  obtain ⟨r, rfl, accounts⟩ := h
  obtain ⟨r', rfl, accounts'⟩ := h'
  exact ⟨r.merge r', merge_assoc report r r', accounts.merge accounts'⟩

theorem Grows.linked (h : Grows report report' g g') : g'.Linked := by
  obtain ⟨_, _, accounts⟩ := h
  exact accounts.linked

/-- One more pattern, which took `n` operators out and did some of the work. -/
theorem grows_record {n m : Nat} (spent : Spent n m g g') (some_work : 0 < m)
    (report : PassReport) : Grows report (report.record n) g g' :=
  ⟨⟨true, 1, n⟩, record_eq report n, spent.linked, fun _ => rfl, spent.count,
    .inr ⟨rfl, spent.size_lt some_work⟩⟩

end PassReport

open PassReport

/-! ## Steps -/

/-- The step adds to the report what it did. -/
def StepReports (step : Operator α → PassReport → Edit α PassReport) : Prop :=
  ∀ {g : Graph α} {op} report, g.Linked → g.operatorAt? op.id = some op →
    Ensures (step op report) g fun report' g' => Grows report report' g g'

/-- Nothing is done. -/
theorem idle_grows (h : g.Linked) (report : PassReport) :
    Ensures (pure report : Edit α PassReport) g fun report' g' => Grows report report' g g' :=
  ensures_pure (.refl h report)

/-- An operator gets a kind that leaves less to do, after edits that keep all kinds. -/
theorem setKind_grows (h : g.Linked) (same : SameKinds g g₁) {o : OperatorId}
    {kind kind' : OperatorKind α} (live : g.kindAt? o = some kind) (less : kind'.work < kind.work)
    (report : PassReport) {u : Unit} (run : setKind o kind' g₁ = .ok u g') :
    Grows report (report.record 0) g g' := by
  have spent := setKind_spent same.linked run ((same.kindAt? o).trans live) (Nat.le_of_lt less)
  exact grows_record ((same.spent h).trans spent) (by omega) report

section

variable [Scalar α]

theorem canonicalConvolution_grows (h : g.Linked) (ho : g.operatorAt? op.id = some op)
    {p : Convolution α} (kind : op.kind = .convolution p) (image : ImageShape)
    (report : PassReport) : Ensures (canonicalConvolution op p image report) g
      fun report' g' => Grows report report' g g' := by
  have live : g.kindAt? op.id = some (.convolution p) := kind ▸ kindAt?_of ho
  rw [Ensures, canonicalConvolution_eq]
  cases found : filterSite? g op p with
  | some site =>
    obtain ⟨filter, shape, payload⟩ := site
    have layout : p.layout = .oihw := (reorderable_of_site h ho (by rw [found]; nofun)).1
    refine ensures_bind fun new g₁ added => ensures_bind fun _ g₂ replaced =>
      ensures_bind fun _ g₃ recast => ensures_pure ?_
    have same := (SameKinds.refl h).call (.addConstant _ shape payload) trivial (run_discard added)
      |>.call (.replaceInput op.id filter new) trivial replaced
    exact setKind_grows h same live (Convolution.work_reordered layout _) report recast
  | none =>
    cases explicit : p.padding.isExplicit with
    | true => exact idle_grows h report
    | false =>
      refine ensures_bind fun _ g₁ recast => ensures_pure ?_
      exact setKind_grows h (.refl h) live (Convolution.work_explicit explicit _) report recast

theorem canonicalStep_reports : StepReports (α := α) canonicalStep := by
  intro g op report h ho
  refine ensures_get ?_
  split
  · exact idle_grows h report
  · split
    · next p kind => exact canonicalConvolution_grows h ho kind _ report
    · next p kind =>
      unfold canonicalPooling
      split
      · next implicit =>
        refine ensures_bind fun _ g₁ recast => ensures_pure ?_
        have live := kind ▸ kindAt?_of ho
        exact setKind_grows h (.refl h) live (p.work_explicit implicit _) report recast
      · exact idle_grows h report
    · exact idle_grows h report

/-- An operator on constants goes, and its result gets a payload. -/
theorem foldOperator_spent (h : g.Linked) (op : Operator α) :
    Ensures (foldOperator op) g fun _ g' => Spent 1 1 g g' := by
  refine ensures_get ?_
  split
  · exact ensures_throw _
  · next result _ =>
    refine ensures_bind fun removed g₁ gone => ?_
    have spent := removeOperator_spent h gone
    split
    · next v _ _ =>
      intro _ g' set
      have same := (SameKinds.refl spent.linked).call (.setPayload v result) trivial set
      exact spent.trans (same.spent spent.linked)
    · exact ensures_pure spent

theorem foldNormalization_grows (h : g.Linked) (ho : g.operatorAt? op.id = some op) {eps : α}
    (kind : op.kind = .batchNormalization eps) (x gammaId betaId : VariableId)
    (gamma beta mean variance : Array α) (report : PassReport) :
    Ensures (foldNormalization op eps x gammaId betaId gamma beta mean variance) g
      fun _ g' => Grows report (report.record 0) g g' := by
  refine ensures_get (ensures_bind fun scale g₁ scaled => ensures_bind fun bias g₂ biased =>
    ensures_bind fun _ g₃ rewired _ g' recast => ?_)
  have same := (SameKinds.refl h).call (.addConstant _ _ _) trivial (run_discard scaled)
    |>.call (.addConstant _ _ _) trivial (run_discard biased)
    |>.call (.setInputs op.id [x, scale, bias]) trivial rewired
  have less : (OperatorKind.axiswiseAffine 1 none : OperatorKind α).work <
      (OperatorKind.batchNormalization eps).work := Nat.lt_succ_self 1
  exact setKind_grows h same (kind ▸ kindAt?_of ho) less report recast

theorem foldStep_reports : StepReports (α := α) foldStep := by
  intro g op report h ho
  refine ensures_get ?_
  split
  · refine ensures_bind fun _ g₁ folded => ensures_pure ?_
    exact grows_record (foldOperator_spent h op _ _ folded) Nat.one_pos report
  · split
    · next kind _ =>
      split
      · refine ensures_bind fun _ g₁ folded => ensures_pure ?_
        exact foldNormalization_grows h ho kind _ _ _ _ _ _ _ report _ _ folded
      · exact idle_grows h report
    · exact idle_grows h report

/-- A scaling takes the place of two. -/
theorem mergeAffine_grows (h : g.Linked) (ho : g.operatorAt? op.id = some op) {scale bias : α}
    (kind : op.kind = .scalarAffine scale bias) (report : PassReport) :
    Ensures (mergeAffine op scale bias report) g fun report' g' => Grows report report' g g' := by
  refine ensures_get ?_
  split
  · exact idle_grows h report
  · next inner _ =>
    split
    · refine ensures_bind fun _ g₁ rewired => ensures_bind fun _ g₂ recast =>
        ensures_bind fun _ g₃ discarded => ensures_pure ?_
      obtain ⟨_, removed⟩ := run_discard_ok_iff.1 discarded
      have same := (SameKinds.refl h).call (.setInputs op.id _) trivial rewired
      have live := (same.kindAt? op.id).trans (kind ▸ kindAt?_of ho)
      have composed := (same.spent h).trans (setKind_spent same.linked recast live (Nat.le_refl 1))
      exact grows_record (composed.trans (removeOperator_spent composed.linked removed))
        (by omega) report
    · exact idle_grows h report

omit [Scalar α] in
/-- The nested sums of a sum go. -/
theorem mergeSum_grows (h : g.Linked) (op : Operator α) (report : PassReport) :
    Ensures (mergeSum op report) g fun report' g' => Grows report report' g g' := by
  refine ensures_get ?_
  dsimp only
  split
  · exact idle_grows h report
  · next nonempty =>
    refine ensures_bind fun _ g₁ rewired => ensures_bind fun _ g₂ removed => ensures_pure ?_
    have same := (SameKinds.refl h).call (.setInputs op.id _) trivial rewired
    have spent := (same.spent h).trans (removeAll_spent Operator.id _ same.linked removed)
    rw [Nat.zero_add] at spent
    exact grows_record spent (List.length_pos_iff.2 (mt List.isEmpty_iff.2 nonempty)) report

theorem mergeStep_reports : StepReports (α := α) mergeStep := by
  intro g op report h ho
  unfold mergeStep
  split
  · next kind => exact mergeAffine_grows h ho kind report
  · exact mergeSum_grows h op report
  · exact idle_grows h report

omit [Scalar α] in
/-- An operator goes, and its producer gets its output. -/
theorem absorb_spent (h : g.Linked) (p o : OperatorId) :
    Ensures (absorb p o) g fun _ g' => Spent 1 1 g g' := by
  refine ensures_bind fun removed g₁ gone => ?_
  have spent := removeOperator_spent h gone
  split
  · next v _ w _ _ _ =>
    intro _ g' rebound
    have same := (SameKinds.refl spent.linked).call (.rebindOutput p v w) trivial rebound
    exact spent.trans (same.spent spent.linked)
  · exact ensures_pure spent

omit [Scalar α] in
/-- An operator takes an activation up, after edits that keep all kinds. -/
theorem withActivation_spent (h : g.Linked) (same : SameKinds g g₁) {p : OperatorId}
    {producer : Operator α} (hp : g.operatorAt? p = some producer) (a : Activation α) {u : Unit}
    (run : setKind producer.id (producer.kind.withActivation a) g₁ = .ok u g') :
    Spent 0 0 g g' := by
  have live := (same.kindAt? p).trans (kindAt?_of hp)
  have less := Nat.le_of_eq (producer.kind.work_withActivation a)
  rw [h.operator_id hp] at run
  have recast := setKind_spent same.linked run live less
  rw [producer.kind.work_withActivation, Nat.sub_self] at recast
  exact (same.spent h).trans recast

omit [Scalar α] in
theorem fuseActivationStep_reports : StepReports (α := α) fuseActivationStep := by
  intro g op report h ho
  unfold fuseActivationStep
  split
  · exact idle_grows h report
  · refine ensures_get ?_
    split
    · exact idle_grows h report
    · next a _ _ producer found =>
      obtain ⟨_, p, _, _, hp, _⟩ := (activationHost?_iff h ho).1 found
      refine ensures_bind fun _ g₁ recast => ensures_bind fun _ g₂ absorbed => ensures_pure ?_
      have taken := withActivation_spent h (.refl h) hp a recast
      exact grows_record (taken.trans (absorb_spent taken.linked _ _ _ _ absorbed))
        Nat.one_pos report

theorem affineSite?_live {site : Operator α × WeightedOperands α × Option (Activation α) ×
    Array α × Array α × Array α} (found : affineSite? g op = some site) :
    ∃ p, g.operatorAt? p = some site.1 := by
  obtain ⟨⟨x, scale, shift, activation⟩, _, found⟩ := Option.bind_eq_some_iff.1 found
  obtain ⟨producer, host, found⟩ := Option.bind_eq_some_iff.1 found
  obtain ⟨p, _, hp⟩ := Option.bind_eq_some_iff.1 host
  split at found
  · obtain ⟨operands, _, found⟩ := Option.bind_eq_some_iff.1 found
    obtain ⟨weights, _, found⟩ := Option.bind_eq_some_iff.1 found
    cases found
    exact ⟨p, hp⟩
  · cases found

omit [Scalar α] in
theorem absorbAffine_spent (h : g.Linked) {p : OperatorId} {producer : Operator α}
    (hp : g.operatorAt? p = some producer) (op : Operator α) (operands : WeightedOperands α)
    (activation : Option (Activation α)) (scale weights bias : Array α) :
    Ensures (absorbAffine op producer operands activation scale weights bias) g
      fun _ g' => Spent 1 1 g g' := by
  refine ensures_get (ensures_bind fun weightId g₁ weighted => ensures_bind fun biasId g₂ biased =>
    ensures_bind fun _ g₃ rewired => ?_)
  have same := (SameKinds.refl h).call (.addConstant _ _ _) trivial (run_discard weighted)
    |>.call (.addConstant _ _ _) trivial (run_discard biased)
    |>.call (.setInputs producer.id [operands.x, weightId, biasId]) trivial rewired
  cases activation with
  | some a =>
    refine ensures_bind fun _ g₄ recast _ g' absorbed => ?_
    have taken := withActivation_spent h same hp a recast
    exact taken.trans (absorb_spent taken.linked _ _ _ _ absorbed)
  | none =>
    intro _ g' absorbed
    exact (same.spent h).trans (absorb_spent same.linked _ _ _ _ absorbed)

theorem fuseAffineStep_reports : StepReports (α := α) fuseAffineStep := by
  intro g op report h ho
  rw [Ensures, fuseAffineStep_eq]
  cases found : affineSite? g op with
  | none => exact idle_grows h report
  | some site =>
    obtain ⟨p, hp⟩ := affineSite?_live found
    obtain ⟨producer, operands, activation, scale, weights, bias⟩ := site
    refine ensures_bind fun _ g₁ absorbed => ensures_pure ?_
    exact grows_record (absorbAffine_spent h hp op operands activation scale weights bias _ _
      absorbed) Nat.one_pos report

end

/-! ## Passes -/

section

variable {step : Operator α → PassReport → Edit α PassReport}

theorem visit_grows (reports : StepReports step) (h : g.Linked) (report : PassReport)
    (order : List OperatorId) :
    Ensures (visit step report order) g fun report' g' => Grows report report' g g' := by
  induction order generalizing g report with
  | nil => exact idle_grows h report
  | cons o rest ih =>
    refine ensures_get ?_
    cases ho : g.operatorAt? o with
    | none => exact ih h report
    | some op =>
      refine ensures_bind fun report₁ g₁ first report' g' run => ?_
      have grown := reports report h (h.operator_id ho ▸ ho) report₁ g₁ first
      exact grown.trans (ih grown.linked report₁ report' g' run)

theorem schedule_same : Ensures schedule g fun _ g' => g' = g := by
  refine ensures_get ?_
  cases g.topologicalOrder with
  | ok order => exact ensures_pure rfl
  | error e => exact ensures_throw e

/-- Pruning after changes does not make the graph larger. -/
theorem PassReport.Accounts.prune {r : PassReport} (h : r.Accounts g g₁)
    (changed : r.changed = true) {n : Nat} (run : prune g₁ = .ok n g') : r.Accounts g g' := by
  obtain ⟨same, smaller, _⟩ := prune_size h.linked run
  have count := (same.spent h.linked).count
  have erased := h.erased
  refine ⟨same.linked, h.changed_of_applied, by omega, .inr ⟨changed, ?_⟩⟩
  rcases h.outcome with ⟨unchanged, _⟩ | ⟨_, less⟩
  · cases unchanged.symm.trans changed
  · exact smaller.trans_lt less

theorem sweep_accounts (reports : StepReports step) (h : g.Linked) :
    Ensures (sweep step) g fun r g' => r.Accounts g g' := by
  refine ensures_bind fun order g₀ scheduled => ensures_bind fun r g₁ visited => ?_
  cases schedule_same _ _ scheduled
  obtain ⟨r', grown, accounts⟩ := visit_grows reports h .nothing order _ _ visited
  rw [nothing_merge] at grown
  subst grown
  unfold tidyUp
  cases changed : r.changed with
  | false => exact ensures_pure accounts
  | true =>
    refine ensures_bind fun _ g₂ discarded => ensures_pure ?_
    obtain ⟨n, pruned⟩ := run_discard_ok_iff.1 discarded
    exact accounts.prune changed pruned

/-- A pattern for every element of a list. -/
theorem foldl_record {β : Type} (xs : List β) (r : PassReport) :
    xs.foldl (fun r _ => r.record 1) r =
      ⟨r.changed || !xs.isEmpty, r.applied + xs.length, r.erased + xs.length⟩ := by
  induction xs generalizing r with
  | nil => simp
  | cons x xs ih =>
    rw [List.foldl_cons, ih]
    simp [record]
    omega

theorem removeDead_accounts (h : g.Linked) :
    Ensures removeDead g fun r g' => r.Accounts g g' := by
  refine ensures_bind fun order g₀ scheduled => ?_
  cases schedule_same _ _ scheduled
  refine ensures_get (ensures_get ?_)
  dsimp only
  generalize deadOperators g g.outputs order.reverse = dead
  refine ensures_bind fun _ g₁ removed => ensures_bind fun dropped g₂ pruned => ensures_pure ?_
  rw [foldl_record]
  cases dead with
  | nil =>
    cases removed
    obtain ⟨same, _, smaller⟩ := prune_size h pruned
    rcases Nat.eq_zero_or_pos dropped with rfl | some_dropped
    · cases (run_prune_ok pruned).2 rfl
      exact accounts_nothing h
    · rw [if_pos some_dropped]
      exact ⟨same.linked, fun _ => rfl, (same.spent h).count, .inr ⟨rfl, smaller some_dropped⟩⟩
  | cons o rest =>
    have spent := removeAll_spent id (o :: rest) h removed
    have accounts : PassReport.Accounts ⟨true, rest.length + 1, rest.length + 1⟩ g g₁ :=
      ⟨spent.linked, fun _ => rfl, spent.count, .inr ⟨rfl, spent.size_lt (Nat.succ_pos _)⟩⟩
    have done := accounts.prune rfl pruned
    simp only [nothing, Nat.zero_add]
    split <;> exact done

end

/-- The report of a pass tells what the pass made of the graph. -/
theorem pass_accounts [Scalar α] {p : Pass α} (hp : p ∈ Pass.all) (h : g.Linked) :
    Ensures p.run g fun r g' => r.Accounts g g' := by
  simp only [Pass.all, List.mem_cons, List.not_mem_nil, or_false] at hp
  rcases hp with rfl | rfl | rfl | rfl | rfl | rfl
  · exact sweep_accounts canonicalStep_reports h
  · exact sweep_accounts foldStep_reports h
  · exact sweep_accounts mergeStep_reports h
  · exact sweep_accounts fuseAffineStep_reports h
  · exact sweep_accounts fuseActivationStep_reports h
  · exact removeDead_accounts h

end TensorGraph
