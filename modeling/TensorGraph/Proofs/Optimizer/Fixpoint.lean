import Mathlib.Order.Minimal
import TensorGraph.Proofs.Optimizer.Contract

/-!
# TensorGraph.Proofs.Optimizer.Fixpoint

After two rounds nothing is left to do.

* `PassKind.stable`: what a pass leaves nothing to do for stays so under the passes after it, and
  under the canonical one. Only the canonical one itself can be undone by others.
* `optimize_fixpoint`: so the first round settles all passes but the canonical one, the second one
  settles that too, and the optimized graph is a fixpoint.
-/

namespace TensorGraph

variable {α : Type} [Scalar α] {g : Graph α} {O' : Outline α} {rank : OperatorId → Nat}
  {host last : OperatorId} {gone : List OperatorId} {op : Operator α} {w : VariableId}

open TensorGraph.Graph Pass

/-! ## What a collapse keeps -/

/-- Operators that become one still read something that is computed: the first of them reads a
value from outside. -/
theorem Collapse.foldQuiet (collapse : Collapse rank g.outline O' host last gone op w)
    (linked : g.Linked) (sound : g.outline.Sound rank)
    (kind : ∀ eps, op.kind ≠ .batchNormalization eps) (quiet : ∀ q, FoldQuiet g.outline q) :
    ∀ q, FoldQuiet O' q := by
  have same {q : OperatorId} {opq : Operator α} {u : VariableId}
      (live : g.outline.operators q = some opq) (hu : u ∈ opq.inputs) :
      O'.payload? u = g.outline.payload? u :=
    collapse.payload?_eq (linked.input_live ⟨opq, live, hu⟩)
  intro q opq live
  by_cases hq : q ∈ host :: gone
  · rcases List.mem_cons.1 hq with rfl | hq
    · cases collapse.operators_host.symm.trans live
      refine ⟨?_, fun eps e => absurd e (kind eps)⟩
      obtain ⟨c, hc, first⟩ :=
        exists_minimalFor_of_wellFoundedLT (fun c => c ∈ q :: gone) rank ⟨q, List.mem_cons_self⟩
      obtain ⟨opc, live⟩ := collapse.group_live c hc
      obtain ⟨⟨u, hu, unset⟩, _⟩ := quiet c opc live
      refine ⟨u, collapse.kept c hc u ⟨opc, live, hu⟩ unset fun p hp written => ?_,
        (same live hu).trans unset⟩
      have lt := sound.ranked p c ⟨u, written, opc, live, hu⟩
      have := first hp (Nat.le_of_lt lt)
      omega
    · cases (collapse.operators_gone q hq).symm.trans live
  · rw [collapse.operators_other q hq] at live
    obtain ⟨⟨u, hu, unset⟩, statistics⟩ := quiet q opq live
    refine ⟨⟨u, hu, (same live hu).trans unset⟩, fun eps e => ?_⟩
    obtain ⟨u, hu, unset⟩ := statistics eps e
    exact ⟨u, hu, (same live (List.mem_of_mem_tail hu)).trans unset⟩

theorem Collapse.unlinked {P : Outline α → Operator α → Operator α → Prop}
    (collapse : Collapse rank g.outline O' host last gone op w) (linked : g.Linked)
    (sound : g.outline.Sound rank)
    (same : ∀ p q producer reader, g.operatorAt? p = some producer →
      g.operatorAt? q = some reader → P O' producer reader → P g.outline producer reader)
    (now : ∀ q producer reader, g.operatorAt? last = some producer →
      g.operatorAt? q = some reader → P O' op reader → P g.outline producer reader)
    (new : O'.Unlinked P host) (quiet : ∀ q, g.outline.Unlinked P q) : ∀ q, O'.Unlinked P q := by
  intro q
  by_cases hq : q ∈ host :: gone
  · rcases List.mem_cons.1 hq with rfl | hq
    · exact new
    · exact Outline.unlinked_dead (collapse.operators_gone q hq)
  · exact collapse.unlinked_other linked sound hq
      (fun p producer reader => same p q producer reader)
      (fun producer reader _ => now q producer reader) (quiet q)

/-- A new operator of a kind that no other merges with. -/
theorem Collapse.mergeQuiet (collapse : Collapse rank g.outline O' host last gone op w)
    (linked : g.Linked) (sound : g.outline.Sound rank)
    (writer : ∀ k, ¬Mergeable op.kind k) (reader : ∀ k, ¬Mergeable k op.kind)
    (quiet : ∀ q, MergeQuiet g.outline q) : ∀ q, MergeQuiet O' q :=
  collapse.unlinked linked sound (fun _ _ _ _ _ _ broken => broken)
    (fun _ _ reader _ _ broken => absurd broken (writer reader.kind))
    (collapse.unlinked_host linked sound fun _ _ _ producer _ _ _ _ _ _ _ => reader producer.kind)
    quiet

/-! ## Kinds of changed operators -/

section

variable {kind kind' : OperatorKind α}

omit [Scalar α]

theorem absorbs_cases (absorbs : absorbsAffine kind = true) :
    (∃ p, kind = .convolution p) ∨ kind = .linear none := by
  cases kind with
  | convolution p => exact .inl ⟨p, rfl⟩
  | linear fused => cases fused <;> simp_all [absorbsAffine]
  | _ => cases absorbs

theorem slot_cases (slot : kind.activationSlot? = some none) :
    (∃ p, kind = .convolution p) ∨ kind = .linear none ∨ kind = .elementwiseAdd none ∨
      ∃ axis, kind = .axiswiseAffine axis none := by
  cases kind with
  | convolution p => exact .inl ⟨p, rfl⟩
  | linear fused => cases slot; exact .inr (.inl rfl)
  | elementwiseAdd fused => cases slot; exact .inr (.inr (.inl rfl))
  | axiswiseAffine axis fused => cases slot; exact .inr (.inr (.inr ⟨axis, rfl⟩))
  | _ => cases slot

theorem withActivation_not_absorbs (slot : kind.activationSlot? = some none) (a : Activation α) :
    absorbsAffine (kind.withActivation a) = false := by
  rcases slot_cases slot with ⟨p, rfl⟩ | rfl | rfl | ⟨axis, rfl⟩ <;> rfl

theorem withActivation_not_normalization (slot : kind.activationSlot? = some none)
    (a : Activation α) (eps : α) : kind.withActivation a ≠ .batchNormalization eps := by
  rcases slot_cases slot with ⟨p, rfl⟩ | rfl | rfl | ⟨axis, rfl⟩ <;> intro e <;> cases e

theorem withActivation_not_mergeable (slot : kind.activationSlot? = some none) (a : Activation α)
    (k : OperatorKind α) : ¬Mergeable (kind.withActivation a) k := by
  rcases slot_cases slot with ⟨p, rfl⟩ | rfl | rfl | ⟨axis, rfl⟩ <;> intro mergeable <;>
    cases mergeable

/-- What merges into an operator that took up an activation could merge into it before. -/
theorem mergeable_of_withActivation (slot : kind.activationSlot? = some none) {a : Activation α}
    {k : OperatorKind α} (mergeable : Mergeable k (kind.withActivation a)) :
    Mergeable k kind := by
  rcases slot_cases slot with ⟨p, rfl⟩ | rfl | rfl | ⟨axis, rfl⟩ <;> cases mergeable
  exact .sum none

theorem Recast.slot (h : Recast kind kind') : kind'.activationSlot? = kind.activationSlot? := by
  cases h with
  | convolution p p' same => exact congrArg some same
  | pooling p p' => rfl

theorem Recast.absorbs (h : Recast kind kind') : absorbsAffine kind' = absorbsAffine kind := by
  cases h with
  | convolution p p' same => exact congrArg Option.isNone same
  | pooling p p' => rfl

theorem Recast.cases (h : Recast kind kind') :
    (∃ p, kind' = .convolution p) ∨ ∃ p, kind' = .pooling p := by
  cases h with
  | convolution p p' _ => exact .inl ⟨p', rfl⟩
  | pooling p p' => exact .inr ⟨p', rfl⟩

end

/-! ## Pairs of passes -/

theorem fold_stable_merge : Stable (α := α) MergeChange PassKind.folding.Settled := by
  intro g rank o O' linked sound change quiet
  obtain ⟨gone, op, merged, w, _, collapse, _, kind, _⟩ := change
  exact collapse.foldQuiet linked sound kind quiet

theorem fold_stable_affine : Stable (α := α) AffineChange PassKind.folding.Settled := by
  intro g rank o O' linked sound change quiet
  obtain ⟨p, producer, fused, w, _, collapse, absorbs, _, kind⟩ := change
  refine collapse.foldQuiet linked sound (fun eps e => ?_) quiet
  rcases absorbs_cases absorbs with ⟨p, before⟩ | before <;> rw [before] at kind <;>
    rcases kind with kind | ⟨a, kind⟩ <;> cases kind.symm.trans e

theorem fold_stable_activation : Stable (α := α) ActivationChange PassKind.folding.Settled := by
  intro g rank o O' linked sound change quiet
  obtain ⟨p, producer, fused, w, a, _, collapse, slot, kind, _⟩ := change
  refine collapse.foldQuiet linked sound (fun eps e => ?_) quiet
  exact withActivation_not_normalization slot a eps (kind.symm.trans e)

theorem fold_stable_canonical : Stable (α := α) CanonicalChange PassKind.folding.Settled := by
  intro g rank o O' linked sound change quiet
  obtain ⟨op, op', w, _, collapse, rewritten, _⟩ := change.collapse
  have recast := rewritten.recast
  refine collapse.foldQuiet linked sound (fun eps e => ?_) quiet
  rcases recast.cases with ⟨p, kind⟩ | ⟨p, kind⟩ <;> cases kind.symm.trans e

theorem merge_stable_affine : Stable (α := α) AffineChange PassKind.merging.Settled := by
  intro g rank o O' linked sound change quiet
  obtain ⟨p, producer, fused, w, _, collapse, absorbs, _, kind⟩ := change
  have fusedKind : (∃ p, fused.kind = .convolution p) ∨ ∃ f, fused.kind = .linear f := by
    rcases absorbs_cases absorbs with ⟨p, before⟩ | before <;> rw [before] at kind <;>
      rcases kind with kind | ⟨a, kind⟩
    · exact .inl ⟨_, kind⟩
    · exact .inl ⟨_, kind⟩
    · exact .inr ⟨_, kind⟩
    · exact .inr ⟨_, kind⟩
  refine collapse.mergeQuiet linked sound (fun k mergeable => ?_) (fun k mergeable => ?_) quiet <;>
    rcases fusedKind with ⟨p, kind⟩ | ⟨f, kind⟩ <;> rw [kind] at mergeable <;> cases mergeable

theorem merge_stable_activation : Stable (α := α) ActivationChange PassKind.merging.Settled := by
  intro g rank o O' linked sound change quiet
  have quiet : ∀ q, MergeQuiet g.outline q := quiet
  obtain ⟨p, producer, fused, w, a, hp, collapse, slot, kind, _, lt, _⟩ := change
  refine collapse.unlinked linked sound (fun _ _ _ _ _ _ broken => broken)
    (fun _ _ reader _ _ broken => ?_) (collapse.unlinked_host linked sound
      fun v q c writer reader hc early _ link hq hr broken => ?_) quiet
  · rw [kind] at broken
    exact absurd broken (withActivation_not_mergeable slot a reader.kind)
  · -- The operator that was linked to is the first of the two.
    have first : c = p := by
      rcases List.mem_pair.1 hc with rfl | rfl
      · rfl
      · omega
    subst first
    cases hp.symm.trans hr
    rw [kind] at broken
    exact quiet c v q writer producer link hq hp (mergeable_of_withActivation slot broken)

theorem merge_stable_canonical : Stable (α := α) CanonicalChange PassKind.merging.Settled := by
  intro g rank o O' linked sound change quiet
  obtain ⟨op, op', w, _, collapse, rewritten, _⟩ := change.collapse
  have recast := rewritten.recast
  refine collapse.mergeQuiet linked sound (fun k mergeable => ?_) (fun k mergeable => ?_) quiet <;>
    rcases recast.cases with ⟨p, kind⟩ | ⟨p, kind⟩ <;> rw [kind] at mergeable <;> cases mergeable

theorem affine_stable_activation : Stable (α := α) ActivationChange PassKind.affine.Settled := by
  intro g rank o O' linked sound change quiet
  obtain ⟨p, producer, fused, w, a, hp, collapse, slot, kind, inputs, lt, _⟩ := change
  refine collapse.unlinked linked sound
    (fun _ _ _ _ hq hr broken => collapse.affinePattern linked hq hr broken)
    (fun _ _ _ _ _ broken => ?_) (collapse.unlinked_host linked sound
      fun v q c writer reader hc early _ link hq hr broken => ?_) quiet
  · have absorbs := broken.2.1
    rw [kind, withActivation_not_absorbs slot a] at absorbs
    cases absorbs
  · have first : c = p := by
      rcases List.mem_pair.1 hc with rfl | rfl
      · rfl
      · omega
    subst first
    cases hp.symm.trans hr
    obtain ⟨⟨b, fusedKind⟩, absorbs, parameters, weights⟩ := broken
    have before : ∃ b, producer.kind = .axiswiseAffine 1 b := by
      rw [kind] at fusedKind
      rcases slot_cases slot with ⟨p, e⟩ | e | e | ⟨axis, e⟩ <;> rw [e] at fusedKind <;>
        cases fusedKind
      exact ⟨none, e⟩
    rw [inputs] at parameters
    exact quiet c v q writer producer link hq hp
      (collapse.affinePattern linked hq hp ⟨before, absorbs, parameters, weights⟩)

theorem affine_stable_canonical : Stable (α := α) CanonicalChange PassKind.affine.Settled := by
  intro g rank o O' linked sound change quiet
  obtain ⟨op, op', w, ho, collapse, rewritten, constants⟩ := change.collapse
  have recast := rewritten.recast
  refine collapse.unlinked linked sound
    (fun _ _ _ _ hq hr broken => collapse.affinePattern linked hq hr broken)
    (fun q writer reader hw hr broken => ?_) (collapse.unlinked_host linked sound
      fun _ _ _ _ _ _ _ _ _ _ _ broken => ?_) quiet
  · cases ho.symm.trans hw
    obtain ⟨kind, absorbs, parameters, weights⟩ := broken
    refine ⟨kind, recast.absorbs ▸ absorbs, fun u hu => ?_, constants weights⟩
    rw [← collapse.payload?_eq (linked.input_live ⟨reader, hr, List.mem_of_mem_tail hu⟩)]
    exact parameters u hu
  · obtain ⟨⟨b, kind⟩, _⟩ := broken
    rcases recast.cases with ⟨p, kind'⟩ | ⟨p, kind'⟩ <;> cases kind.symm.trans kind'

theorem activation_stable_canonical :
    Stable (α := α) CanonicalChange PassKind.activation.Settled := by
  intro g rank o O' linked sound change quiet
  obtain ⟨op, op', w, ho, collapse, rewritten, _⟩ := change.collapse
  have recast := rewritten.recast
  refine collapse.unlinked linked sound (fun _ _ _ _ _ _ broken => broken)
    (fun q writer reader hw _ broken => ?_) (collapse.unlinked_host linked sound
      fun _ _ _ _ _ _ _ _ _ _ _ broken => ?_) quiet
  · cases ho.symm.trans hw
    exact ⟨broken.1, recast.slot ▸ broken.2⟩
  · obtain ⟨⟨a, kind⟩, _⟩ := broken
    rcases recast.cases with ⟨p, kind'⟩ | ⟨p, kind'⟩ <;> cases kind.symm.trans kind'

theorem PassKind.stable {k k' : PassKind} (ne : k ≠ .canonical)
    (later : k' = .canonical ∨ [k, k'].Sublist PassKind.all) :
    Stable (α := α) k'.Change k.Settled := by
  cases k with
  | canonical => exact absurd rfl ne
  | folding => cases k' with
    | canonical => exact fold_stable_canonical
    | folding => exact absurd later (by decide)
    | merging => exact fold_stable_merge
    | affine => exact fold_stable_affine
    | activation => exact fold_stable_activation
    | deadCode => exact fun _ _ change => change.elim
  | merging => cases k' with
    | canonical => exact merge_stable_canonical
    | affine => exact merge_stable_affine
    | activation => exact merge_stable_activation
    | deadCode => exact fun _ _ change => change.elim
    | _ => exact absurd later (by decide)
  | affine => cases k' with
    | canonical => exact affine_stable_canonical
    | activation => exact affine_stable_activation
    | deadCode => exact fun _ _ change => change.elim
    | _ => exact absurd later (by decide)
  | activation => cases k' with
    | canonical => exact activation_stable_canonical
    | deadCode => exact fun _ _ change => change.elim
    | _ => exact absurd later (by decide)
  | deadCode => exact fun _ _ _ _ _ => trivial

/-! ## Rounds -/

theorem PassKind.pairwise_stable {l : List PassKind} (known : l.Sublist PassKind.all) :
    l.Pairwise fun k k' => k ≠ .canonical → Stable (α := α) k'.Change k.Settled :=
  List.pairwise_iff_forall_sublist.2 fun sub ne => PassKind.stable ne (.inr (sub.trans known))

/-- A round that finds nothing to do but for the canonical pass leaves nothing to do at all. -/
theorem round_settles {l : List PassKind} (known : l.Sublist PassKind.all) {g : Graph α}
    (h : g.Tidy) (settled : ∀ k ∈ l, k ≠ .canonical → k.Settled g.outline) (s : Snapshots) :
    ∃ g' report s', round (l.map PassKind.pass) g .nothing s = .ok (g', report) s' ∧ g'.Tidy ∧
      ∀ k ∈ l, k.Settled g'.outline := by
  have others {r : List PassKind} (sub : r.Sublist PassKind.all.tail) {k : PassKind}
      (hk : k ∈ r) : k ≠ .canonical := by
    rintro rfl
    exact absurd (sub.subset hk) (by decide)
  rcases List.sublist_cons_iff.1 known with sub | ⟨rest, rfl, sub⟩
  · have all : ∀ k ∈ l, k.Settled g.outline := fun k hk => settled k hk (others sub hk)
    exact ⟨g, .nothing, s, round_idle l h all .nothing s, h, all⟩
  · obtain ⟨report, g₁, run₁, swept, _⟩ := PassKind.canonical.run h
    obtain ⟨s₁, unfolded, _⟩ :=
      round_cons .canonical (rest.map PassKind.pass) run₁ swept.tidy .nothing s
    have kept : ∀ k ∈ rest, k.Settled g₁.outline := fun k hk =>
      swept.stable _ (PassKind.stable (others sub hk) (.inl rfl)) (fun _ => PassKind.Settled.pruned)
        (settled k (List.mem_cons_of_mem _ hk) (others sub hk))
    refine ⟨g₁, _, s₁, unfolded.trans (round_idle rest swept.tidy kept _ s₁), swept.tidy,
      fun k hk => ?_⟩
    rcases List.mem_cons.1 hk with rfl | hk
    · exact swept.quiet
    · exact kept k hk

namespace Pass

/-- How many of at most `n` rounds change the graph. -/
def changingRounds (ps : List (Pass α)) : Nat → Graph α → Snapshots → Nat
  | 0, _, _ => 0
  | n + 1, g, s =>
    match round ps g .nothing s with
    | .ok (g', report) s' => if report.changed then changingRounds ps n g' s' + 1 else 0
    | .error _ _ => 0

theorem changingRounds_idle (l : List PassKind) {g : Graph α} (h : g.Tidy)
    (settled : ∀ k ∈ l, k.Settled g.outline) (n : Nat) (s : Snapshots) :
    changingRounds (l.map PassKind.pass) n g s = 0 := by
  cases n with
  | zero => rfl
  | succ n => rw [changingRounds, round_idle l h settled .nothing s]; rfl

end Pass

theorem rounds_settle {l : List PassKind} (known : l.Sublist PassKind.all) {g : Graph α}
    (h : g.Tidy) (s : Snapshots) : ∃ g' s', g'.Tidy ∧ (∀ k ∈ l, k.Settled g'.outline) ∧
      (∀ n, rounds (l.map PassKind.pass) (n + 2) g s = .ok g' s') ∧
      ∀ n, changingRounds (l.map PassKind.pass) n g s ≤ 2 := by
  obtain ⟨g₁, report₁, s₁, run₁, advanced, idle⟩ := round_run l h .nothing s
  cases changed₁ : report₁.changed with
  | false =>
    obtain ⟨_, rfl, rfl, settled⟩ := idle changed₁
    refine ⟨g₁, s₁, h, settled, fun n => rounds_idle l h settled (n + 2) s₁, fun n => ?_⟩
    rw [changingRounds_idle l h settled]
    exact Nat.zero_le 2
  | true =>
    obtain ⟨g₂, report₂, s₂, run₂, tidy, settled⟩ := round_settles known advanced.tidy
      (advanced.settled (· ≠ .canonical) (PassKind.pairwise_stable known)) s₁
    refine ⟨g₂, s₂, tidy, settled, fun n => ?_, fun n => ?_⟩
    · rw [rounds_succ _ (n + 1) run₁, changed₁, if_pos rfl, rounds_succ _ n run₂,
        rounds_idle l tidy settled n s₂, ite_self]
    · match n with
      | 0 => exact Nat.zero_le 2
      | 1 =>
        simp only [changingRounds, run₁, changed₁, if_true]
        omega
      | n + 2 =>
        simp only [changingRounds, run₁, changed₁, if_true, run₂,
          changingRounds_idle l tidy settled n s₂]
        split <;> omega

/-- With two rounds or more the optimized graph is a fixpoint: every enabled pass reports no change
and leaves it as it is, and so does the optimizer. More rounds make the same graph, as no more than
two of them ever change one. -/
theorem Graph.optimize_fixpoint {g : Graph α} (h : g.Checked) (options : OptimizerOptions)
    (enough : 2 ≤ options.maxRounds) (s : Snapshots) :
    ∃ g' s', g.optimize options s = .ok g' s' ∧
      (∀ p ∈ Pass.enabled options, ∃ report, p.run g' = .ok report g' ∧ report.changed = false) ∧
      (∀ t, g'.optimize options t = .ok g' t) ∧
      (∀ n, 2 ≤ n → g.optimize { options with maxRounds := n } s = .ok g' s') ∧
      ∀ n, Pass.changingRounds (Pass.enabled options) n g s ≤ 2 := by
  have known : (PassKind.enabled options).Sublist PassKind.all := List.filter_sublist
  obtain ⟨g', s', tidy, settled, run, few⟩ := rounds_settle known h.tidy s
  have bounded (n : Nat) (hn : 2 ≤ n) :
      g.optimize { options with maxRounds := n } s = .ok g' s' := by
    obtain ⟨k, rfl⟩ := Nat.exists_eq_add_of_le' hn
    rw [Graph.optimize, PassKind.enabled_eq]
    exact run k
  refine ⟨g', s', bounded options.maxRounds enough, fun p hp => ?_, fun t => ?_, bounded,
    fun n => ?_⟩
  · rw [PassKind.enabled_eq] at hp
    obtain ⟨k, hk, rfl⟩ := List.mem_map.1 hp
    exact ⟨.nothing, k.idle tidy (settled k hk), rfl⟩
  · rw [Graph.optimize, PassKind.enabled_eq]
    exact rounds_idle _ tidy settled options.maxRounds t
  · rw [PassKind.enabled_eq]
    exact few n

theorem Graph.optimize_fixpoint_scaledTwice : scaledTwice.Checked ∧ 2 ≤ 8 ∧ ∃ g' s',
    scaledTwice.optimize .standard .unwanted = .ok g' s' ∧
      ∀ t, g'.optimize .standard t = .ok g' t := by
  obtain ⟨g', s', run, _, again, _⟩ :=
    optimize_fixpoint scaledTwice_checked .standard (by decide) .unwanted
  exact ⟨scaledTwice_checked, by decide, g', s', run, again⟩

end TensorGraph
