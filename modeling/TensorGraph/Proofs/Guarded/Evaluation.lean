import TensorGraph.Guarded.Evaluation
import TensorGraph.Proofs.Evaluation.Assignment
import TensorGraph.Proofs.Evaluation.Inputs
import TensorGraph.Proofs.Guarded.Kernel

/-!
# TensorGraph.Proofs.Guarded.Evaluation

Evaluation with all its steps guarded, beside the exact one.

* `OperatorKind.Fits`, `Outline.Fits`, `Graph.WithinWords`: operators and graphs whose numbers fit a
  word.
* `Guarded.compute_follows`: the kernel of a kind, where the shapes of the operands fit.
* `Guarded.evaluateStep_agrees`, `Guarded.evaluateSteps_agrees`: one operator, and all of them.
* `Graph.evaluate_safe`: the evaluation of a checked graph is at fault where a number is too large
  only, and fails for buffers that do not fit only. `hugeTensor_overflows` has too large a number.
-/

namespace TensorGraph

open Kernel (Buffer)

/-- The numbers that an operator takes fit a word: memory has room for its operands and its result,
and its shape rule and its kernel count no farther. -/
structure OperatorKind.Fits {α : Type} (kind : OperatorKind α) (shapes : List Shape) (out : Shape) :
    Prop where
  measurable : kind.Measurable shapes
  indexable : kind.Indexable shapes
  operands : ∀ s ∈ shapes, s.size < Guarded.bufferLimit
  result : out.size < Guarded.bufferLimit

/-- The numbers of every operator fit a word. -/
def Outline.Fits {α : Type} (O : Outline α) : Prop :=
  ∀ o op, O.operators o = some op → ∀ v ∈ op.outputs,
    op.kind.Fits (op.inputs.map O.shape) (O.shape v)

/-- The numbers that the evaluation of a graph takes fit a word: memory has room for every variable,
and shape rules and kernels count no farther. -/
structure Graph.WithinWords {α : Type} (g : Graph α) : Prop where
  room : ∀ x ∈ g.liveVariables, x.shape.size < Guarded.bufferLimit
  measurable : ∀ op ∈ g.liveOperators, op.kind.Measurable (op.inputs.map g.shape)
  indexable : ∀ op ∈ g.liveOperators, op.kind.Indexable (op.inputs.map g.shape)

namespace Graph

variable {α : Type} {g : Graph α}

theorem WithinWords.size_lt (fits : g.WithinWords) (linked : g.Linked) {v : VariableId}
    (live : g.outline.Live v) : (g.shape v).size < Guarded.bufferLimit := by
  obtain ⟨x, hx⟩ := live_iff.1 live
  have shape : g.shape v = x.shape := by rw [Graph.shape, hx]
  rw [shape]
  exact fits.room x ((mem_liveVariables linked).2 ((linked.variable_id hx).symm ▸ hx))

theorem WithinWords.fits (fits : g.WithinWords) (linked : g.Linked) : g.outline.Fits := by
  intro o op ho v hv
  have mem : op ∈ g.liveOperators :=
    (mem_liveOperators linked).2 ((linked.operator_id ho).symm ▸ ho)
  have room {u : VariableId} (live : g.outline.Live u) : (g.outline.shape u).size <
      Guarded.bufferLimit :=
    shape_eq g u ▸ fits.size_lt linked live
  rw [← shapes_eq]
  refine ⟨fits.measurable op mem, fits.indexable op mem, fun s hs => ?_,
    room (linked.output_live ⟨op, ho, hv⟩)⟩
  rw [shapes_eq] at hs
  obtain ⟨u, hu, rfl⟩ := List.mem_map.1 hs
  exact room (linked.input_live ⟨op, ho, hu⟩)

end Graph

namespace Guarded

variable {α : Type} [Scalar α] {free : Prop}

/-! ## Operators that fit -/

theorem compute_follows (place : Place) {kind : OperatorKind α} {shapes : List Shape}
    {out : Shape} (typed : kind.outputShape shapes = .ok out) (positive : ∀ s ∈ shapes, 0 ∉ s)
    (some_result : 0 ∉ out) {operands : List (Buffer α)}
    (sizes : operands.map Array.size = shapes.map Shape.size)
    (fits : free → kind.Fits shapes out) :
    Follows free (compute place kind shapes out operands) (kind.compute shapes out operands) := by
  have third (x w : Buffer α) (rest : List (Buffer α)) : (x :: w :: rest)[2]? = rest.head? :=
    List.head?_eq_getElem?.symm
  cases OperatorKind.fitting_of_sizes typed sizes with
  | @convolution p image dims extent others x w rest hx hw hbias inputs kernel window =>
    show Follows free (convolution p x image w _ (x :: w :: rest)[2]? extent) _
    rw [third]
    have size := Kernel.size4 image.batch dims.outputs extent.height extent.width
    exact convolution_follows _ (positive _ List.mem_cons_self) some_result inputs kernel window
      (fun h => (fits h).measurable image rfl) (fun h => hx ▸ (fits h).indexable image rfl)
      (fun h => hw ▸ fits_word ((fits h).operands _ (by simp))) (fun h => size ▸ (fits h).result)
  | @linear fused batch outputs features others x w rest hx hw hbias =>
    show Follows free (linear fused x batch features.size w outputs (x :: w :: rest)[2]?) _
    rw [third]
    have some_feature : 0 < features.size :=
      Kernel.size_pos fun mem => positive _ List.mem_cons_self (List.mem_cons_of_mem _ mem)
    exact linear_follows fused _ some_feature hx hw
      (fun h => hx ▸ fits_word ((fits h).operands _ List.mem_cons_self))
      (fun h => by
        have := fits_word ((fits h).operands [outputs, features.size] (by simp))
        rw [hw]
        simpa using this)
      (fun h => by simpa using (fits h).result)
  | activation hx => exact .pure _
  | batchNormalization =>
    exact batchNormalization_follows _ _ _ _ _ _ (positive _ List.mem_cons_self)
      fun h => fits_word ((fits h).operands _ List.mem_cons_self)
  | @pooling p image extent x hx window =>
    have size := Kernel.size4 image.batch image.channels extent.height extent.width
    exact pooling_follows (hx.trans (Kernel.size4 _ _ _ _)) (positive _ List.mem_cons_self)
      some_result window (fun h => (fits h).measurable image rfl)
      (fun h => hx ▸ (fits h).indexable.1 image rfl) (fun h => (fits h).indexable.2)
      (fun h => size ▸ (fits h).result)
  | @responseNormalization p image x hx =>
    exact responseNormalization_follows (hx.trans (Kernel.size4 _ _ _ _))
      (positive _ List.mem_cons_self) (fun h => (fits h).indexable image rfl)
      fun h => hx ▸ (fits h).operands _ List.mem_cons_self
  | reshape hx => exact .pure _
  | elementwiseAdd some_operand sizes =>
    obtain ⟨x, rest, rfl⟩ := List.exists_cons_of_ne_nil some_operand
    exact elementwiseAdd_follows _ _
  | scalarAffine hx => exact .pure _
  | axiswiseAffine =>
    exact axiswiseAffine_follows _ _ _ _ (positive _ List.mem_cons_self)
      (fun h => (fits h).indexable) fun h => fits_word ((fits h).operands _ List.mem_cons_self)
  | softmax inside hx =>
    exact softmax_follows some_result hx (fun h => (fits h).indexable)
      fun h => hx ▸ (fits h).operands _ List.mem_cons_self

section

variable {g : Graph α}

omit [Scalar α] in
theorem shapeOf_ok {v : VariableId} (live : g.outline.Live v) : shapeOf g v = .ok (g.shape v) := by
  obtain ⟨x, hx⟩ := Graph.live_iff.1 live
  rw [shapeOf, Graph.shape, hx]
  rfl

omit [Scalar α] in
theorem shapes_ok {vs : List VariableId} (live : ∀ v ∈ vs, g.outline.Live v) :
    vs.mapM (shapeOf g) = .ok (vs.map g.shape) := by
  induction vs with
  | nil => rfl
  | cons v vs ih =>
    obtain ⟨first, rest⟩ := List.forall_mem_cons.1 live
    rw [List.mapM_cons, Graph.except_bind_ok (shapeOf_ok first), Graph.except_bind_ok (ih rest)]
    rfl

omit [Scalar α] in
theorem valueOf_eq {v : VariableId} (live : g.outline.Live v) (values : Valuation α) :
    valueOf g values v = report (g.valueOf values v) := by
  obtain ⟨x, hx⟩ := Graph.live_iff.1 live
  have payload : g.payload? v = x.payload := by rw [Graph.payload?, hx]; rfl
  have found : demand .dead (g.variableAt? v) = .ok x := by rw [hx]; rfl
  rw [valueOf, Graph.except_bind_ok found, Graph.valueOf, payload]
  cases x.payload with
  | some payload => rfl
  | none => cases values.lookup v <;> rfl

theorem count_shape_agrees {rank : OperatorId → Nat} (sound : g.outline.Sound rank)
    {v : VariableId} (room : free → (g.shape v).size < bufferLimit) :
    Agrees free (count (g.shape v)) (.ok (g.shape v).size) := by
  have positive : 0 ∉ g.shape v := by
    rw [Graph.shape_eq]
    exact sound.positive v
  exact count_agrees fun fits => (Shape.countable_iff positive).2 (fits_word (room fits))

theorem bindInputs_agrees (linked : g.Linked) {rank : OperatorId → Nat}
    (sound : g.outline.Sound rank) (inputs : List (Buffer α)) :
    Agrees g.WithinWords (bindInputs g inputs) (report (g.bindInputs inputs)) := by
  rw [bindInputs, Graph.bindInputs, report_bind]
  refine .bind (.refl _) fun _ _ => .foldlM_report (fun values p hp => ?_) []
  have live := linked.designated_live (.inl (List.of_mem_zip hp).1)
  rw [Graph.except_bind_ok (shapeOf_ok live)]
  refine (count_shape_agrees sound fun fits => fits.size_lt linked live).step ?_
  refine .of_eq ?_
  rw [report_bind]
  rfl

/-- The check of an operator whose variables are live. -/
theorem checkOperator_agrees {op : Operator α}
    (live : ∀ v ∈ op.inputs ++ op.outputs, g.outline.Live v)
    (positive : ∀ v ∈ op.inputs, 0 ∉ g.shape v) :
    Agrees (op.kind.Measurable (op.inputs.map g.shape)) (checkOperator g op)
      (report (g.checkOperator op)) := by
  have shapes := shapes_ok fun v hv => live v (List.mem_append_left _ hv)
  have judged : report (g.inferredShape op) =
      judge op.place (op.kind.outputShape (op.inputs.map g.shape)) := by
    unfold Graph.inferredShape
    cases op.kind.outputShape (op.inputs.map g.shape) <;> rfl
  rw [checkOperator, Graph.except_bind_ok shapes, Graph.checkOperator, report_bind, judged]
  refine (outputShape_agrees op.place op.kind fun s hs => ?_).bind fun inferred _ => .of_eq ?_
  · obtain ⟨v, hv, rfl⟩ := List.mem_map.1 hs
    exact positive v hv
  · match outputs : op.outputs with
    | [] => rfl
    | _ :: _ :: _ => rfl
    | [v] =>
      have declared : shapeOf g v = .ok (g.shape v) :=
        shapeOf_ok (live v (List.mem_append_right _ (by simp [outputs])))
      show (shapeOf g v >>= _) = _
      rw [Graph.except_bind_ok declared]

variable (linked : g.Linked) {rank : OperatorId → Nat} (sound : g.outline.Sound rank)
  {o : OperatorId} {op : Operator α} (ho : g.operatorAt? o = some op)

include linked sound ho

/-- What the check of an operator comes down to in a sound graph. -/
theorem operator_typed : ∃ v, op.outputs = [v] ∧ g.outline.Live v ∧
    op.inputs.mapM (shapeOf g) = .ok (op.inputs.map g.shape) ∧
    op.kind.outputShape (op.inputs.map g.shape) = .ok (g.shape v) ∧
    (∀ s ∈ op.inputs.map g.shape, 0 ∉ s) ∧ 0 ∉ g.shape v := by
  obtain ⟨v, outputs, typed⟩ := sound.result ho
  have written : g.outline.Live v :=
    linked.output_live ⟨op, ho, outputs ▸ List.mem_singleton_self v⟩
  have positive (u : VariableId) : 0 ∉ g.shape u := by
    rw [Graph.shape_eq]
    exact sound.positive u
  refine ⟨v, outputs, written, shapes_ok fun u hu => linked.input_live ⟨op, ho, hu⟩, ?_,
    fun s hs => ?_, positive v⟩
  · rw [Graph.shapes_eq, Graph.shape_eq, typed]
  · obtain ⟨u, _, rfl⟩ := List.mem_map.1 hs
    exact positive u

theorem operator_checked :
    Agrees (op.kind.Measurable (op.inputs.map g.shape)) (checkOperator g op) (.ok ⟨⟩) := by
  obtain ⟨v, outputs, written, _, typed, positive, _⟩ := operator_typed linked sound ho
  have run : g.checkOperator op = .ok ⟨⟩ := by
    rw [Graph.shapes_eq, Graph.shape_eq] at typed
    exact Graph.checkOperator_iff.2 ⟨v, outputs, typed⟩
  rw [← report_ok, ← run]
  refine checkOperator_agrees (fun u hu => ?_) fun u hu => positive _ (List.mem_map_of_mem hu)
  rcases List.mem_append.1 hu with hu | hu
  · exact linked.input_live ⟨op, ho, hu⟩
  · exact linked.output_live ⟨op, ho, hu⟩

/-- An operator on operands of the sizes of their shapes, in a sound graph. -/
theorem evaluateOperator_agrees (fits : free → g.outline.Fits) {operands : List (Buffer α)}
    (sizes : operands.map Array.size = op.inputs.map fun u => (g.shape u).size) {r : Buffer α}
    (evaluated : g.evaluateOperator op operands = .ok r) :
    Agrees free (evaluateOperator g op operands) (.ok r) := by
  obtain ⟨v, outputs, written, shapes, typed, positive, some_result⟩ :=
    operator_typed linked sound ho
  have room (h : free) : op.kind.Fits (op.inputs.map g.shape) (g.shape v) := by
    rw [Graph.shapes_eq, Graph.shape_eq]
    exact fits h o op ho v (outputs ▸ List.mem_singleton_self v)
  have first : entry op.outputs 0 = .ok v := entry_ok (by rw [outputs]; rfl)
  have counted : Graph.ensure (operands.length == op.inputs.length)
      (.invalidGraph op.place (.operandCount operands.length op.inputs.length)) = .ok ⟨⟩ := by
    rw [Graph.ensure_ok_iff, beq_iff_eq]
    simpa using congrArg List.length sizes
  have sizes' : operands.map Array.size = (op.inputs.map g.shape).map Shape.size := by
    rw [sizes, List.map_map]
    rfl
  have result : Agrees free
      (compute op.place op.kind (op.inputs.map g.shape) (g.shape v) operands) (.ok r) := by
    refine compute_follows op.place typed positive some_result sizes' room r ?_
    rw [Graph.shapes_eq, Graph.shape_eq]
    exact Graph.evaluateOperator_result evaluated outputs
  have sized : Graph.ensure (r.size == (g.shape v).size)
      (.shapeMismatch op.place (.resultSize r.size (g.shape v))) = .ok ⟨⟩ := by
    rw [Graph.ensure_ok_iff, beq_iff_eq]
    exact Graph.evaluateOperator_size evaluated outputs
  refine ((operator_checked linked sound ho).mono fun h => (room h).measurable).step ?_
  rw [counted, report_ok, Graph.except_ok_bind, Graph.except_bind_ok shapes,
    Graph.except_bind_ok first, Graph.except_bind_ok (shapeOf_ok written)]
  refine result.step ((count_shape_agrees sound fun h => (room h).result).step (.of_eq ?_))
  rw [sized, report_ok, Graph.except_ok_bind]
  rfl

end

/-! ## Graphs that pass their checks -/

section

variable {g : Graph α} {values values' : Valuation α}

omit [Scalar α] in
theorem operand_sizes (linked : g.Linked) {done : List OperatorId} (known : g.Known done values)
    {vs : List VariableId} {operands : List (Buffer α)}
    (read : vs.mapM (g.valueOf values) = .ok operands) :
    operands.map Array.size = vs.map fun v => (g.shape v).size := by
  induction vs generalizing operands with
  | nil =>
    cases read
    rfl
  | cons v vs ih =>
    rw [List.mapM_cons] at read
    obtain ⟨x, hx, read⟩ := Graph.except_bind_ok_iff.1 read
    obtain ⟨rest, others, e⟩ := Graph.except_bind_ok_iff.1 read
    cases e
    have size : x.size = (g.shape v).size := by
      rw [Graph.shape_eq]
      rcases Graph.valueOf_ok hx with payload | ⟨_, found⟩
      · exact Graph.payload?_size linked (Graph.payload?_eq g v ▸ payload)
      · exact known.sized found
    rw [List.map_cons, List.map_cons, size, ih others]

variable (linked : g.Linked) {rank : OperatorId → Nat} (sound : g.outline.Sound rank)

include linked sound

/-- The step of a run, where the values so far have the sizes of their shapes. -/
theorem evaluateStep_agrees {done : List OperatorId} (known : g.Known done values) {o : OperatorId}
    {op : Operator α} (ho : g.operatorAt? o = some op)
    (step : g.evaluateStep values o = .ok values') :
    Agrees g.WithinWords (evaluateStep g values o) (.ok values') := by
  obtain ⟨v, outputs, _⟩ := sound.result ho
  obtain ⟨operands, r, read, evaluated, rfl⟩ := (Graph.evaluateStep_ok_iff ho outputs).1 step
  have operator : demand .dead (g.operatorAt? o) = .ok op := by rw [ho]; rfl
  have guarded : op.inputs.mapM (valueOf g values) = .ok operands := by
    rw [mapM_report fun u hu => valueOf_eq (linked.input_live ⟨op, ho, hu⟩) values, read]
    rfl
  have first : entry op.outputs 0 = .ok v := entry_ok (by rw [outputs]; rfl)
  rw [evaluateStep, Graph.except_bind_ok operator, Graph.except_bind_ok guarded]
  refine (evaluateOperator_agrees linked sound ho (fun fits => fits.fits linked)
    (operand_sizes linked known read) evaluated).step ?_
  rw [Graph.except_bind_ok first]
  exact .refl _

theorem evaluateSteps_agrees {order : List OperatorId} (sorted : g.outline.Sorted order)
    {done rest : List OperatorId} (e : order = done ++ rest) (known : g.Known done values)
    (run : rest.foldlM g.evaluateStep values = .ok values') :
    Agrees g.WithinWords (rest.foldlM (evaluateStep g) values) (.ok values') := by
  induction rest generalizing done values with
  | nil => exact .of_eq (congrArg Except.ok (Except.ok.inj run))
  | cons o rest ih =>
    have mem : o ∈ order := e ▸ List.mem_append_right _ List.mem_cons_self
    obtain ⟨op, ho⟩ := (sorted.mem_iff o).1 mem
    obtain ⟨next, step, known'⟩ := known.step linked sound ho (sorted.closed done o rest e)
    rw [List.foldlM_cons, Graph.except_bind_ok step] at run
    rw [List.foldlM_cons]
    refine (evaluateStep_agrees linked sound known ho step).step ?_
    exact ih (by rw [e, List.append_assoc, List.singleton_append]) known' run

/-- A graph that passes its checks is evaluated without a fault but for numbers that are too
large. -/
theorem evaluate_agrees (inputs : List (Buffer α)) :
    Agrees g.WithinWords (evaluate g inputs) (report (g.evaluate inputs)) := by
  have bound := bindInputs_agrees linked sound inputs
  by_cases fits : g.Fits inputs
  · obtain ⟨order, found⟩ := topologicalOrder_of_ranked linked sound.ranked
    have sorted := topologicalOrder_sorted linked found
    obtain ⟨values, run, _⟩ :=
      (Graph.known_inputs fits).run linked sound sorted (List.nil_append order).symm
    have steps := evaluateSteps_agrees linked sound sorted (List.nil_append order).symm
      (Graph.known_inputs fits) run
    rw [Graph.bindInputs_ok fits] at bound
    rw [Graph.evaluate_eq_along found, Graph.evaluateAlong, Graph.bindInputs_ok fits,
      Graph.except_ok_bind, Graph.except_bind_ok run]
    refine bound.step ?_
    rw [found, report_ok, Graph.except_ok_bind]
    refine steps.step (.of_eq ?_)
    exact mapM_report fun v hv => valueOf_eq (linked.designated_live (.inr hv)) values
  · obtain ⟨e, misfit⟩ := Graph.misfit_of_not_fits fits
    have refused := Graph.bindInputs_error_iff.2 misfit
    rw [refused] at bound
    have outcome : g.evaluate inputs = .error e := (Graph.evaluate_of_bindInputs_error refused)
    rw [outcome]
    exact bound.stop

end

end Guarded

/-- The evaluation of a checked graph is at fault where a number does not fit a word, and nowhere
else: no element or slice outside of a buffer is read or written, no difference of indices is
negative and no divisor is zero. It fails for buffers that are not as many as the inputs, or not of
their sizes, and for nothing else. If it gives a result, it is the exact one, one buffer per output,
of the size of its shape. In a graph whose numbers fit there are no faults, and buffers that fit
have a result. -/
theorem Graph.evaluate_safe {α : Type} [Scalar α] {g : Graph α} (checked : g.Checked)
    (inputs : List (Buffer α)) :
    (∀ f, Guarded.evaluate g inputs = .error (.fault f) → f = .overflow ∧ ¬g.WithinWords) ∧
      (∀ e, Guarded.evaluate g inputs = .error (.error e) → g.Misfit inputs e) ∧
      (∀ outputs, Guarded.evaluate g inputs = .ok outputs → g.evaluate inputs = .ok outputs ∧
        outputs.map Array.size = g.outputs.map fun v => (g.shape v).size) ∧
      (g.WithinWords → (∀ e, Guarded.evaluate g inputs = .error (.error e) ↔ g.Misfit inputs e) ∧
        (inputs.length = g.inputs.length →
          (∀ p ∈ g.inputs.zip inputs, p.2.size = (g.shape p.1).size) →
          ∃ outputs, Guarded.evaluate g inputs = .ok outputs)) := by
  obtain ⟨linked, ⟨rank, sound⟩, _⟩ := checked.tidy
  have guarded := Guarded.evaluate_agrees linked sound inputs
  have misfit (e : GraphError) : g.evaluate inputs = .error e ↔ g.Misfit inputs e :=
    evaluate_error_iff linked sound
  refine ⟨fun f => guarded.overflow, fun e refused => (misfit e).1 ?_, fun outputs run => ?_,
    fun fits => ?_⟩
  · have outcome := guarded.of_error refused
    cases exact : g.evaluate inputs <;> rw [exact] at outcome <;> cases outcome
    rfl
  · have outcome := guarded.of_ok run
    cases exact : g.evaluate inputs <;> rw [exact] at outcome <;> cases outcome
    have fits : g.Fits inputs := by
      by_contra fails
      obtain ⟨e, unfit⟩ := misfit_of_not_fits fails
      cases exact.symm.trans ((misfit e).2 unfit)
    obtain ⟨outputs', evaluated, sizes⟩ := evaluate_total linked sound fits
    cases exact.symm.trans evaluated
    refine ⟨rfl, sizes.trans (List.map_congr_left fun v _ => ?_)⟩
    rw [shape_eq]
  · rw [guarded.eq fits]
    refine ⟨fun e => ?_, fun count fitting => ?_⟩
    · rw [← misfit e]
      cases g.evaluate inputs <;> simp [Guarded.report]
    · obtain ⟨outputs, evaluated, _⟩ := evaluate_total linked sound (fits_iff.2 ⟨count, fitting⟩)
      exact ⟨outputs, by rw [evaluated, Guarded.report_ok]⟩

/-- A convolution with padding behind the image only, and windows the last of which are not
whole. -/
def Graph.paddedWindows : Graph Binary32 :=
  afterCalls .empty
    [.addVariable "x" [1, 1, 3, 3], .addConstant "w" [1, 1, 2, 2] #[1, 2, 3, 4],
      .addVariable "c" [1, 1, 3, 3], .addVariable "y" [1, 1, 2, 2],
      .addOperator (.convolution ⟨⟨2, 2⟩, ⟨1, 1⟩, .same, .oihw, none⟩) [⟨0⟩, ⟨1⟩] [⟨2⟩],
      .addOperator (.pooling ⟨.max, ⟨2, 2⟩, ⟨2, 2⟩, .symmetric 0 0, true⟩) [⟨2⟩] [⟨3⟩],
      .designateInputs [⟨0⟩], .designateOutputs [⟨3⟩]]

theorem Graph.paddedWindows_checked : paddedWindows.Checked where
  reachable := Reachable.empty.afterCalls _
  valid := by decide
  inputs_free := by decide

/-- Nine pixels are enough for it, and eight are not. -/
theorem Graph.evaluate_safe_paddedWindows : paddedWindows.Checked ∧ paddedWindows.WithinWords ∧
    Guarded.evaluate paddedWindows [#[1, 1, 1, 1, 1, 1, 1, 1, 1]] = .ok [#[10, 4, 3, 1]] ∧
    Guarded.evaluate paddedWindows [#[1, 1, 1, 1, 1, 1, 1, 1]] = .error (.error
      (.shapeMismatch (.variable ⟨0⟩) (.inputSize (paddedWindows.shape ⟨0⟩) 8))) := by
  have value : (paddedWindows.evaluate [#[1, 1, 1, 1, 1, 1, 1, 1, 1]]).toOption =
      some [#[10, 4, 3, 1]] := by decide +kernel
  have misfit : paddedWindows.Misfit [#[1, 1, 1, 1, 1, 1, 1, 1]]
      (.shapeMismatch (.variable ⟨0⟩) (.inputSize (paddedWindows.shape ⟨0⟩) 8)) :=
    .size [] [] ⟨0⟩ #[1, 1, 1, 1, 1, 1, 1, 1] rfl rfl nofun (by decide)
  have fits : paddedWindows.WithinWords :=
    ⟨by decide, by decide, by decide⟩
  obtain ⟨_, _, exact, total⟩ :=
    evaluate_safe paddedWindows_checked [#[1, 1, 1, 1, 1, 1, 1, 1, 1]]
  obtain ⟨_, _, _, misfits⟩ := evaluate_safe paddedWindows_checked [#[1, 1, 1, 1, 1, 1, 1, 1]]
  obtain ⟨outputs, run⟩ := (total fits).2 (by decide) (by decide)
  rw [(exact outputs run).1] at value
  cases Option.some.inj value
  exact ⟨paddedWindows_checked, fits, run, ((misfits fits).1 _).2 misfit⟩

/-- Two poolings. The margins of the first one make a tensor of `3 * 12297829382473034411` elements
of a pixel, one more than a multiple of `2 ^ 64`, and the second one takes the maximum of all of
it. -/
def Graph.hugeTensor : Graph Binary32 :=
  afterCalls .empty
    [.addVariable "x" [1, 1, 1, 1], .addVariable "m" [1, 1, 3, 12297829382473034411],
      .addVariable "y" [1, 1, 1, 1],
      .addOperator (.pooling ⟨.max, ⟨1, 1⟩, ⟨1, 1⟩, .symmetric 1 6148914691236517205, false⟩)
        [⟨0⟩] [⟨1⟩],
      .addOperator (.pooling ⟨.max, ⟨3, 12297829382473034411⟩, ⟨1, 1⟩, .symmetric 0 0, false⟩)
        [⟨1⟩] [⟨2⟩],
      .designateInputs [⟨0⟩], .designateOutputs [⟨2⟩]]

/-- The graph passes its checks and one pixel is what it asks for, but counting the elements between
the poolings does not fit a word. -/
theorem Graph.hugeTensor_overflows : hugeTensor.Checked ∧ Guarded.check hugeTensor = .ok ⟨⟩ ∧
    hugeTensor.Fits [#[1]] ∧ Guarded.evaluate hugeTensor [#[1]] = .error (.fault .overflow) :=
  ⟨⟨Reachable.empty.afterCalls _, by decide, by decide⟩, by decide,
    fits_iff.2 ⟨by decide, by decide⟩, by decide⟩

end TensorGraph
