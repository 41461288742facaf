import TensorGraph.Guarded.Build
import TensorGraph.Proofs.Guarded.Evaluation
import TensorGraph.Proofs.Optimizer.Rounds

/-!
# TensorGraph.Proofs.Guarded.Optimizer

The optimizer with its numbers guarded, beside the exact one.

* `PassKind.fits_stable`: where the numbers of all operators fit a word, they still do after a
  change of a pass.
* `Guarded.foldConstants_agrees`, `Guarded.runChecked_agrees`: the folding pass, and any pass with
  the check behind it.
* `Guarded.rounds_agrees`: so the rounds over all passes.
-/

namespace TensorGraph

open TensorGraph.Graph Pass

variable {α : Type}

/-! ## Numbers of changed operators -/

namespace OperatorKind

variable {kind : OperatorKind α} {shapes shapes' : List Shape}

/-- The shape rule and the kernel count along the first operand. -/
theorem counts_congr (first : shapes'.head? = shapes.head?)
    (fits : kind.Measurable shapes ∧ kind.Indexable shapes) :
    kind.Measurable shapes' ∧ kind.Indexable shapes' := by
  cases kind <;> simpa only [Measurable, Indexable, first] using fits

theorem counts_fused {a : Option (Activation α)}
    (fits : kind.Measurable shapes ∧ kind.Indexable shapes) :
    (fusedKind kind a).Measurable shapes ∧ (fusedKind kind a).Indexable shapes := by
  cases a with
  | none => exact fits
  | some a => cases kind <;> exact fits

end OperatorKind

/-- An extent is no larger than the whole shape. -/
theorem Shape.le_size {s : Shape} (positive : 0 ∉ s) {d : Nat} (h : d ∈ s) : d ≤ s.size := by
  induction s with
  | nil => cases h
  | cons e s ih =>
    have rest : 0 ∉ s := fun hm => positive (List.mem_cons_of_mem e hm)
    rw [Shape.size_cons]
    rcases List.mem_cons.1 h with rfl | h
    · exact Nat.le_mul_of_pos_right d (Kernel.size_pos rest)
    · have first : 0 < e := Nat.pos_of_ne_zero fun zero => positive (zero ▸ List.mem_cons_self)
      exact Nat.le_trans (ih rest h) (Nat.le_mul_of_pos_left _ first)

variable [Scalar α] {g : Graph α} {rank : OperatorId → Nat} {O' : Outline α}

namespace Outline.Fits

variable (h : g.outline.Fits) (sound : g.outline.Sound rank) {o : OperatorId} {op : Operator α}

include h

omit [Scalar α] in
theorem written {v : VariableId} (writes : g.outline.Writes o v) :
    (g.outline.shape v).size < Guarded.bufferLimit := by
  obtain ⟨op, ho, hv⟩ := writes
  exact (h o op ho v hv).result

include sound

/-- A vector with an element for each place along an axis of a result. -/
theorem vector {v : VariableId} (writes : g.outline.Writes o v) {axis dim : Nat}
    (along : (g.outline.shape v)[axis]? = some dim) : Shape.size [dim] < Guarded.bufferLimit := by
  rw [Shape.size_cons, Shape.size_nil, Nat.mul_one]
  exact Nat.lt_of_le_of_lt (Shape.le_size (sound.positive v) (List.mem_of_getElem? along))
    (h.written writes)

theorem operator (ho : g.outline.operators o = some op) :
    (op.kind.Measurable (op.inputs.map g.outline.shape) ∧
      op.kind.Indexable (op.inputs.map g.outline.shape)) ∧
    ∀ v ∈ op.inputs, (g.outline.shape v).size < Guarded.bufferLimit := by
  obtain ⟨w, outputs, _⟩ := sound.result ho
  have fits := h o op ho w (outputs ▸ List.mem_singleton_self w)
  exact ⟨⟨fits.measurable, fits.indexable⟩, fun v hv => fits.operands _ (List.mem_map_of_mem hv)⟩

end Outline.Fits

/-- A collapse into an operator whose numbers fit. Its result is one that was there before. -/
theorem Collapse.fits {host last : OperatorId} {gone : List OperatorId} {op : Operator α}
    {w : VariableId} (collapse : Collapse rank g.outline O' host last gone op w) (linked : g.Linked)
    (h : g.outline.Fits)
    (counts : op.kind.Measurable (op.inputs.map O'.shape) ∧
      op.kind.Indexable (op.inputs.map O'.shape))
    (operands : ∀ v ∈ op.inputs, (O'.shape v).size < Guarded.bufferLimit) : O'.Fits := by
  intro o op' ho v hv
  by_cases group : o ∈ host :: gone
  · rcases List.mem_cons.1 group with rfl | removed
    · cases collapse.operators_host.symm.trans ho
      rw [collapse.outputs_eq] at hv
      obtain rfl := List.mem_singleton.1 hv
      refine ⟨counts.1, counts.2, fun s hs => ?_, ?_⟩
      · obtain ⟨u, hu, rfl⟩ := List.mem_map.1 hs
        exact operands u hu
      · rw [collapse.shape_eq (linked.output_live collapse.last_writes)]
        exact h.written collapse.last_writes
    · cases (collapse.operators_gone o removed).symm.trans ho
  · rw [collapse.operators_other o group] at ho
    have inputs : op'.inputs.map O'.shape = op'.inputs.map g.outline.shape :=
      List.map_congr_left fun u hu => collapse.shape_eq (linked.input_live ⟨op', ho, hu⟩)
    rw [inputs, collapse.shape_eq (linked.output_live ⟨op', ho, hv⟩)]
    exact h o op' ho v hv

theorem canonical_fits : Stable (α := α) CanonicalChange Outline.Fits := by
  intro g rank o O' linked sound change h
  obtain ⟨op, op', w, ho, collapse, rewritten, _⟩ := change.collapse
  obtain ⟨counts, operands⟩ := h.operator sound ho
  have old {u : VariableId} (hu : u ∈ op.inputs) : O'.shape u = g.outline.shape u :=
    collapse.shape_eq (linked.input_live ⟨op, ho, hu⟩)
  -- Margins that are spelled out are those that were worked out for the image.
  refine collapse.fits linked h ?_ ?_
  · cases rewritten with
    | convolution p image x rest kind inputs shape kind' inputs' =>
      rw [kind, inputs, List.map_cons, shape] at counts
      rw [kind', inputs', inputs, List.map_cons, old (inputs ▸ List.mem_cons_self), shape]
      exact ⟨fun input h => by cases h; exact counts.1 image rfl,
        fun input h => by cases h; exact counts.2 image rfl⟩
    | pooling p image x kind inputs shape kind' inputs' =>
      rw [kind, inputs, List.map_cons, shape] at counts
      rw [kind', inputs', inputs, List.map_cons, old (inputs ▸ List.mem_cons_self), shape]
      exact ⟨fun input h => by cases h; exact counts.1 image rfl,
        fun input h => by cases h; exact counts.2.1 image rfl, counts.2.2⟩
    | filter p image x filter new rest dims _ _ kind inputs shape _ _ _ _ kind' inputs' _ _ =>
      rw [kind, inputs, List.map_cons, shape] at counts
      rw [kind', inputs', List.map_cons, old (inputs ▸ List.mem_cons_self), shape]
      exact ⟨fun input h => by cases h; exact counts.1 image rfl,
        fun input h => by cases h; exact counts.2 image rfl⟩
  · intro u hu
    cases rewritten with
    | convolution _ _ _ _ _ _ _ _ inputs' =>
      rw [inputs'] at hu
      rw [old hu]
      exact operands u hu
    | pooling _ _ _ _ _ _ _ inputs' =>
      rw [inputs'] at hu
      rw [old hu]
      exact operands u hu
    | filter p image x filter new rest dims _ _ kind inputs _ _ filter_shape _ _ _ inputs'
        new_shape _ =>
      rw [inputs'] at hu
      rw [inputs] at operands old
      have same : (FilterLayout.ohwi.shape dims).size = (FilterLayout.oihw.shape dims).size := by
        simp only [FilterLayout.shape, Shape.size_cons, Shape.size_nil, Nat.mul_one]
        rw [Nat.mul_comm dims.inputs, Nat.mul_assoc]
      rcases List.mem_cons.1 hu with rfl | hu
      · rw [old List.mem_cons_self]
        exact operands u List.mem_cons_self
      rcases List.mem_cons.1 hu with rfl | hu
      · rw [new_shape, same, ← filter_shape]
        exact operands filter (by simp)
      · have hu : u ∈ x :: filter :: rest := by simp [hu]
        rw [old hu]
        exact operands u hu

theorem fold_fits : Stable (α := α) FoldChange Outline.Fits := by
  intro g rank o O' linked sound change h
  rcases change with ⟨op, v, _, constant, _⟩ | ⟨op, op', w, ho, collapse, kind, _, normalized⟩
  · intro p opp hp u hu
    rw [List.map_congr_left fun u _ => constant.shape_eq u, constant.shape_eq]
    exact h p opp (constant.operators hp).2 u hu
  · obtain ⟨_, operands⟩ := h.operator sound ho
    obtain ⟨eps, x, a, b, c, d, s, t, _, _, _, _, _, inputs, _, _, _, _, inputs', _⟩ := normalized
    have typed := collapse.typed
    rw [kind, inputs'] at typed
    obtain ⟨dim, found, shapes⟩ := axiswiseAffineShape_ok_iff.1
      (show axiswiseAffineShape 1 [O'.shape x, O'.shape s, O'.shape t] = _ from typed)
    obtain ⟨_, scale, shift⟩ : _ ∧ O'.shape s = [dim] ∧ O'.shape t = [dim] := by
      simpa using shapes
    have channels := h.vector sound collapse.last_writes found
    have next : 1 + 1 < Guarded.wordLimit := by decide
    refine collapse.fits linked h (by rw [kind]; exact ⟨trivial, next⟩) fun u hu => ?_
    rw [inputs'] at hu
    simp only [List.mem_cons, List.not_mem_nil, or_false] at hu
    rcases hu with rfl | rfl | rfl
    · have hu : u ∈ op.inputs := inputs ▸ List.mem_cons_self
      rw [collapse.shape_eq (linked.input_live ⟨op, ho, hu⟩)]
      exact operands u hu
    · rw [scale]
      exact channels
    · rw [shift]
      exact channels

theorem merge_fits : Stable (α := α) MergeChange Outline.Fits := by
  intro g rank o O' linked sound change h
  obtain ⟨gone, op, merged, w, ho, collapse, _, _, shape, _⟩ := change
  have read {c : OperatorId} {opc : Operator α} (hc : g.outline.operators c = some opc)
      {u : VariableId} (hu : u ∈ opc.inputs) : (O'.shape u).size < Guarded.bufferLimit := by
    rw [collapse.shape_eq (linked.input_live ⟨opc, hc, hu⟩)]
    exact (h.operator sound hc).2 u hu
  cases shape with
  | affine p inner v x scale bias innerScale innerBias _ live _ inputs _ _ _ kind' inputs' =>
    refine collapse.fits linked h (by rw [kind']; exact ⟨trivial, trivial⟩) fun u hu => ?_
    rw [inputs', ← inputs] at hu
    exact read live hu
  | sum fused block _ kind' inputs' blocks =>
    refine collapse.fits linked h (by rw [kind']; exact ⟨trivial, trivial⟩) fun u hu => ?_
    rw [inputs'] at hu
    obtain ⟨v, hv, hu⟩ := List.mem_flatMap.1 hu
    rcases blocks v hv with single | ⟨p, _, n, hn, _, inner, _⟩
    · rw [single, List.mem_singleton] at hu
      exact read ho (hu ▸ hv)
    · exact read hn (inner ▸ hu)

theorem affine_fits : Stable (α := α) AffineChange Outline.Fits := by
  intro g rank o O' linked sound change h
  obtain ⟨p, producer, fused, w, hp, collapse, absorbs, absorbed, _⟩ := change
  obtain ⟨_, activation, _, _, _, weightId, biasId, operands, _, _, _, _, _, _, _, _, _, weighted,
    _, kind', inputs', shape', _⟩ := absorbed
  obtain ⟨counts, room⟩ := h.operator sound hp
  obtain ⟨rest, inputs, _⟩ := weighted.inputs
  have old {u : VariableId} (hu : u ∈ producer.inputs) : O'.shape u = g.outline.shape u :=
    collapse.shape_eq (linked.input_live ⟨producer, hp, hu⟩)
  have first := old (inputs ▸ List.mem_cons_self)
  have typed := collapse.typed
  rw [kind', fusedKind_outputShape, inputs'] at typed
  obtain ⟨_, _, bias, outputs, _, shapes, vector, channels, _⟩ := absorbing_shape absorbs typed
  -- The bias has an element for each channel of the result.
  have shape_bias : O'.shape biasId = [outputs] := by
    simp only [List.map_cons, List.map_nil, List.cons.injEq] at shapes
    refine vector _ (Option.mem_toList.1 ?_)
    rw [← shapes.2.2]
    exact List.mem_singleton_self _
  refine collapse.fits linked h ?_ fun u hu => ?_
  · rw [kind']
    refine OperatorKind.counts_fused (OperatorKind.counts_congr ?_ counts)
    rw [inputs', inputs, List.map_cons, first]
    rfl
  · rw [inputs'] at hu
    simp only [List.mem_cons, List.not_mem_nil, or_false] at hu
    rcases hu with rfl | rfl | rfl
    · rw [first]
      exact room _ (inputs ▸ List.mem_cons_self)
    · rw [shape']
      exact room _ (by simp [inputs])
    · rw [shape_bias]
      exact h.vector sound collapse.last_writes channels

theorem activation_fits : Stable (α := α) ActivationChange Outline.Fits := by
  intro g rank o O' linked sound change h
  obtain ⟨p, producer, fused, w, a, hp, collapse, _, kind, inputs, _⟩ := change
  obtain ⟨counts, room⟩ := h.operator sound hp
  have old {u : VariableId} (hu : u ∈ producer.inputs) : O'.shape u = g.outline.shape u :=
    collapse.shape_eq (linked.input_live ⟨producer, hp, hu⟩)
  refine collapse.fits linked h ?_ fun u hu => ?_
  · rw [kind, inputs, List.map_congr_left fun u => old]
    exact OperatorKind.counts_fused (a := some a) counts
  · rw [inputs] at hu
    rw [old hu]
    exact room u hu

theorem PassKind.fits_stable (k : PassKind) : Stable (α := α) k.Change Outline.Fits := by
  cases k with
  | canonical => exact canonical_fits
  | folding => exact fold_fits
  | merging => exact merge_fits
  | affine => exact affine_fits
  | activation => exact activation_fits
  | deadCode => exact fun _ _ change => change.elim

omit [Scalar α] in
theorem Outline.Fits.pruned {O : Outline α} (h : O.Fits) : O.pruned.Fits := by
  intro o op ho v hv
  have written : O.Writes o v := ⟨op, ho, hv⟩
  have read (u : VariableId) (hu : u ∈ op.inputs) : O.pruned.shape u = O.shape u :=
    Outline.pruned_shape (.inr (.inl ⟨o, op, ho, hu⟩))
  rw [List.map_congr_left read, Outline.pruned_shape (.inl ⟨o, written⟩)]
  exact h o op ho v hv

/-- A pass makes no numbers too large. -/
theorem PassKind.fits_swept {k : PassKind} {g g' : Graph α} (swept : Swept k.Quiet k.Change g g')
    (fits : g.outline.Fits) : g'.outline.Fits :=
  swept.stable _ k.fits_stable (fun _ => Outline.Fits.pruned) fits

/-- A graph between passes has no variables but those of operators and designated ones. -/
theorem Graph.Tidy.withinWords {g : Graph α} (tidy : g.Tidy) (fits : g.outline.Fits)
    (designated : ∀ v, v ∈ g.inputs ∨ v ∈ g.outputs →
      (g.outline.shape v).size < Guarded.bufferLimit) : g.WithinWords := by
  obtain ⟨rank, sound⟩ := tidy.sound
  have operator {op : Operator α} (live : op ∈ g.liveOperators) :=
    (fits.operator sound ((mem_liveOperators tidy.linked).1 live)).1
  refine ⟨fun x hx => ?_, fun op live => ?_, fun op live => ?_⟩
  · have found := outline_tensors_of ((mem_liveVariables tidy.linked).1 hx)
    have shape : g.outline.shape x.id = x.shape := Outline.shape_of found
    rw [← shape]
    rcases tidy.needed x.id ⟨_, found⟩ with ⟨o, writes⟩ | ⟨o, op, ho, read⟩ | output
    · exact fits.written writes
    · exact (fits.operator sound ho).2 x.id read
    · exact designated x.id output
  · rw [shapes_eq]
    exact (operator live).1
  · rw [shapes_eq]
    exact (operator live).2

/-- Optimizing makes no numbers too large. -/
theorem Graph.WithinWords.optimize {g g' : Graph α} (fits : g.WithinWords) (tidy : g.Tidy)
    {options : OptimizerOptions} {s s' : Snapshots} (run : g.optimize options s = .ok g' s') :
    g'.WithinWords := by
  rw [Graph.optimize, PassKind.enabled_eq] at run
  obtain ⟨_, _, run', tidy', keeps, _⟩ :=
    rounds_run (PassKind.enabled options) options.maxRounds tidy s
  cases run.symm.trans run'
  refine tidy'.withinWords (rounds_stable (fun k _ => k.fits_stable)
    (fun _ => Outline.Fits.pruned) tidy run (fits.fits tidy.linked)) fun v hv => ?_
  obtain ⟨t, t', ht, ht', _, shape⟩ := keeps.designated v (keeps.inputs ▸ keeps.outputs ▸ hv)
  rw [Outline.shape_of ht', shape, ← Outline.shape_of ht, ← shape_eq]
  exact fits.size_lt tidy.linked ⟨t, ht⟩

namespace Guarded

variable {free : Prop}

/-! ## The folding pass -/

theorem foldStep_run (op : Operator α) (report : PassReport) (g : Graph α) :
    foldStep op report g = (if op.inputs.all g.isConstant then do
      let result ← Run.lift (evaluateOperator g op (op.inputs.filterMap g.payload?))
      Run.perform (Pass.replaceByConstant op result)
      return report.record 1
    else Run.perform (Pass.foldStep op report)) g := rfl

section

variable (linked : g.Linked) (sound : g.outline.Sound rank) (fits : free → g.outline.Fits)

include linked sound fits

theorem foldStep_agrees {o : OperatorId} {op : Operator α} (ho : g.operatorAt? o = some op)
    (report : PassReport) :
    Run.Agrees free (foldStep op report) (Pass.foldStep op report) g := by
  cases constant : op.inputs.all g.isConstant with
  | false =>
    refine (Run.Agrees.perform _ g).congr ?_ rfl
    rw [foldStep_run, constant]
    rfl
  | true =>
    have constants (u : VariableId) (hu : u ∈ op.inputs) : g.outline.payload? u ≠ none :=
      isConstant_iff.1 (List.all_eq_true.1 constant u hu)
    obtain ⟨v, outputs, _⟩ := sound.result ho
    have sizes := filterMap_payload_sizes linked constants
    obtain ⟨r, run, _⟩ := evaluateOperator_ok sound ho outputs sizes
    have result := evaluateOperator_agrees linked sound ho fits
      (by simpa only [shape_eq] using sizes) run
    have folded : Run.Agrees free (do
        let result ← Run.lift (evaluateOperator g op (op.inputs.filterMap g.payload?))
        Run.perform (Pass.replaceByConstant op result)
        return report.record 1) (do
        Pass.replaceByConstant op r
        return report.record 1) g :=
      .step result (.bind (.perform _ g) fun _ g' _ => .pure _ g')
    refine folded.congr ?_ ?_
    · rw [foldStep_run, constant]
      rfl
    · have replaced : foldOperator op g = Pass.replaceByConstant op r g := by
        rw [foldOperator, Edit.run_bind_ok (Edit.run_get g), run]
      rw [Pass.foldStep, Edit.run_bind_ok (Edit.run_get g), constant, if_pos rfl, Edit.run_bind,
        replaced, Edit.run_bind]

/-- Visiting operators. Every step keeps the graph sound, and its numbers do not grow. -/
theorem visit_agrees (order : List OperatorId) (report : PassReport) :
    Run.Agrees free (Pass.visit foldStep report order) (Pass.visit Pass.foldStep report order)
      g := by
  induction order generalizing g report with
  | nil => exact .pure report g
  | cons o rest ih =>
    refine Run.Agrees.bind (.inl rfl) fun g₀ g' got => ?_
    cases got
    cases ho : g.operatorAt? o with
    | none => exact ih linked sound fits report
    | some op =>
      refine (foldStep_agrees linked sound fits ho report).bind fun report' g' run => ?_
      rcases foldStep_rule.outcome report linked sound ho with quiet | ⟨_, O', _, yields, change⟩
      · cases run.symm.trans (foldStep_rule.idle report linked sound ho quiet)
        exact ih linked sound fits report
      · obtain ⟨g₁, run₁, linked₁, outline⟩ := yields
        cases run.symm.trans run₁
        rw [← outline] at change
        exact ih linked₁ (foldStep_rule.sound linked sound change)
          (fun h => fold_fits linked sound change (fits h)) report'

end

variable {g : Graph α}

theorem foldConstants_agrees (tidy : g.Tidy) (fits : free → g.outline.Fits) :
    Run.Agrees free foldConstants constantFolding.run g := by
  obtain ⟨order, schedule, _, sound⟩ := schedule_run tidy
  refine (Run.Agrees.perform _ g).bind fun order' g' run => ?_
  cases schedule.symm.trans run
  exact (visit_agrees tidy.linked sound fits order .nothing).bind fun report g' _ => .perform _ g'

/-! ## Passes and checks -/

theorem runPass_agrees (k : PassKind) (tidy : g.Tidy) (fits : free → g.outline.Fits) :
    Run.Agrees free (runPass k.pass) k.pass.run g := by
  cases k with
  | folding => exact foldConstants_agrees tidy fits
  | _ => exact .perform _ g

theorem check_agrees (tidy : g.Tidy) (fits : free → g.outline.Fits) :
    Agrees free (check g) (.ok ⟨⟩) := by
  obtain ⟨rank, sound⟩ := tidy.sound
  have valid : g.validate = .ok ⟨⟩ := ((check_ok_iff tidy.linked).1 tidy.check).1
  rw [check, valid, report_ok, except_ok_bind]
  refine .forM fun op live => ?_
  have ho := (mem_liveOperators tidy.linked).1 live
  refine (operator_checked tidy.linked sound ho).mono fun h => ?_
  rw [shapes_eq]
  exact ((fits h).operator sound ho).1.1

theorem blame_agrees {β : Type} {outcome : Guarded β} {x : β} (pass : String)
    (h : Agrees free outcome (.ok x)) : Agrees free (blame pass outcome) (.ok x) := by
  rcases h with rfl | ⟨big, rfl⟩
  · exact .refl _
  · exact .inr ⟨big, rfl⟩

theorem runChecked_agrees (k : PassKind) (tidy : g.Tidy) (fits : free → g.outline.Fits) :
    Agrees free (runChecked k.pass g) (report (Pass.runChecked k.pass g)) := by
  obtain ⟨report', g', run, swept, _⟩ := k.run tidy
  have after := check_agrees swept.tidy fun h => PassKind.fits_swept swept (fits h)
  rw [runChecked_of_run k run swept.tidy]
  unfold runChecked
  rcases runPass_agrees k tidy fits with same | ⟨big, g'', stops⟩
  · rw [same, Run.perform, run]
    exact (blame_agrees k.pass.name after).step (.refl _)
  · rw [stops]
    exact .inr ⟨big, rfl⟩

/-! ## Rounds -/

theorem round_agrees (l : List PassKind) (tidy : g.Tidy) (fits : free → g.outline.Fits)
    (total : PassReport) (s : Snapshots) :
    Run.Agrees free (round (l.map PassKind.pass) g total)
      (Pass.round (l.map PassKind.pass) g total) s := by
  induction l generalizing g total s with
  | nil => exact .pure _ s
  | cons k rest ih =>
    obtain ⟨report', g', run, swept, _⟩ := k.run tidy
    have exact := runChecked_of_run k run swept.tidy
    refine (Run.Agrees.of_lift (runChecked_agrees k tidy fits) (by rw [exact]; rfl)).bind
      fun y s' lifted => ?_
    rw [exact] at lifted
    cases lifted
    have later (s : Snapshots) := ih swept.tidy (fun h => PassKind.fits_swept swept (fits h))
      (total.merge report') s
    cases changed : report'.changed with
    | true =>
      simp only [changed]
      exact .bind (.perform _ s) fun _ s' _ => later s'
    | false =>
      simp only [changed]
      exact later s

theorem rounds_agrees (l : List PassKind) (n : Nat) (tidy : g.Tidy) (fits : free → g.outline.Fits)
    (s : Snapshots) : Run.Agrees free (rounds (l.map PassKind.pass) n g)
      (Pass.rounds (l.map PassKind.pass) n g) s := by
  induction n generalizing g s with
  | zero => exact .pure g s
  | succ n ih =>
    refine (round_agrees l tidy fits .nothing s).bind fun y s' run => ?_
    obtain ⟨g', report', s'', run', advanced, _⟩ := round_run l tidy .nothing s
    cases run.symm.trans run'
    show Run.Agrees free (if report'.changed then _ else _) (if report'.changed then _ else _) _
    cases report'.changed with
    | true => exact ih advanced.tidy (fun h => advanced.stable _ (fun k _ => k.fits_stable)
        (fun _ => Outline.Fits.pruned) (fits h)) s'
    | false => exact .pure g' s'

theorem optimize_agrees (tidy : g.Tidy) (fits : free → g.outline.Fits) (options : OptimizerOptions)
    (s : Snapshots) : Run.Agrees free (optimize g options) (g.optimize options) s := by
  rw [optimize, Graph.optimize, PassKind.enabled_eq]
  exact rounds_agrees _ _ tidy fits s

end Guarded

end TensorGraph
