import TensorGraph.Pass.Canonical
import TensorGraph.Proofs.Edit.Operators
import TensorGraph.Proofs.Evaluation.Kernel
import TensorGraph.Proofs.Pass.Sweep

/-!
# TensorGraph.Proofs.Pass.Canonical

Writing parameters in one form.

* `CanonicalQuiet`: an operator has its margins spelled out, and no filter that may be reordered.
* `canonicalStep_rule`: a step leaves its operator so. It changes no other operator, and no operand
  but a filter that its operator alone reads.
-/

namespace TensorGraph

variable {α : Type} {O O' : Outline α} {o p : OperatorId} {op : Operator α} {v w : VariableId}

open TensorGraph.Graph Edit Pass

/-- Who reads a value once is told by the operands. -/
theorem Outline.Once.of_inputs
    (same : ∀ c, (O'.operators c).map (·.inputs) = (O.operators c).map (·.inputs))
    (once : O'.Once v o) : O.Once v o := by
  obtain ⟨⟨op', ho, count⟩, alone⟩ := once
  have there := same o
  rw [ho] at there
  obtain ⟨op, ho, inputs⟩ := Option.map_eq_some_iff.1 there.symm
  refine ⟨⟨op, ho, by rw [inputs]; exact count⟩, fun c ⟨opc, hc, hv⟩ => alone c ?_⟩
  have here := same c
  rw [hc] at here
  obtain ⟨opc', hc', inputs'⟩ := Option.map_eq_some_iff.1 here
  exact ⟨opc', hc', by rw [inputs']; exact hv⟩

/-- The filter of a convolution is a constant in the wrong order that only it reads. -/
def Reorderable (O : Outline α) (o : OperatorId) (op : Operator α) (p : Convolution α) : Prop :=
  p.layout = .oihw ∧ ∃ x filter rest, op.inputs = x :: filter :: rest ∧
    O.payload? filter ≠ none ∧ O.Once filter o ∧ filter ∉ O.outputs

structure CanonicalQuiet (O : Outline α) (q : OperatorId) : Prop where
  convolution : ∀ {op p}, O.operators q = some op → op.kind = .convolution p →
    p.padding.isExplicit = true ∧ ¬Reorderable O q op p
  pooling : ∀ {op p}, O.operators q = some op → op.kind = .pooling p →
    p.ceilMode = false ∧ p.padding.isExplicit = true

/-- Two kinds that differ in their parameters only, and not in their activation. -/
inductive Recast : OperatorKind α → OperatorKind α → Prop
  | convolution (p p' : Convolution α) (same : p'.activation = p.activation) :
      Recast (.convolution p) (.convolution p')
  | pooling (p p' : Pooling) : Recast (.pooling p) (.pooling p')

variable [Scalar α]

/-- What a step writes in the place of `op`: its margins spelled out, and in the last case the
filter as a new constant in the other order. -/
inductive Rewritten (O O' : Outline α) (op op' : Operator α) : Prop
  | convolution (p : Convolution α) (image : ImageShape) (x : VariableId)
      (rest : List VariableId) (kind : op.kind = .convolution p) (inputs : op.inputs = x :: rest)
      (shape : O.shape x = image.toShape)
      (kind' : op'.kind = .convolution (p.withExplicitMargins image.extent))
      (inputs' : op'.inputs = op.inputs)
  | pooling (p : Pooling) (image : ImageShape) (x : VariableId) (kind : op.kind = .pooling p)
      (inputs : op.inputs = [x]) (shape : O.shape x = image.toShape)
      (kind' : op'.kind = .pooling (p.withExplicitMargins image.extent))
      (inputs' : op'.inputs = op.inputs)
  | filter (p : Convolution α) (image : ImageShape) (x filter new : VariableId)
      (rest : List VariableId) (dims : FilterDims) (weights reordered : Array α)
      (kind : op.kind = .convolution p) (inputs : op.inputs = x :: filter :: rest)
      (shape : O.shape x = image.toShape) (layout : p.layout = .oihw)
      (filter_shape : O.shape filter = FilterLayout.oihw.shape dims)
      (weights_eq : O.payload? filter = some weights)
      (reorder : Kernel.reorderFilter weights dims = some reordered)
      (kind' : op'.kind =
        .convolution { p.withExplicitMargins image.extent with layout := .ohwi })
      (inputs' : op'.inputs = x :: new :: rest)
      (new_shape : O'.shape new = FilterLayout.ohwi.shape dims)
      (new_payload : O'.payload? new = some reordered)

theorem Rewritten.recast {op' : Operator α} (h : Rewritten O O' op op') :
    Recast op.kind op'.kind := by
  cases h with
  | convolution p image x rest kind _ _ kind' _ =>
    rw [kind, kind']
    exact .convolution p _ rfl
  | pooling p image x kind _ _ kind' _ =>
    rw [kind, kind']
    exact .pooling p _
  | filter p image x filter new rest dims weights reordered kind _ _ _ _ _ _ kind' _ _ _ =>
    rw [kind, kind']
    exact .convolution p _ rfl

structure CanonicalChange (rank : OperatorId → Nat) (O : Outline α) (o : OperatorId)
    (O' : Outline α) : Prop where
  collapse : ∃ op op' w, O.operators o = some op ∧ Collapse rank O O' o o [] op' w ∧
    Rewritten O O' op op' ∧
    ((∀ u ∈ op'.inputs.tail, O'.payload? u ≠ none) → ∀ u ∈ op.inputs.tail, O.payload? u ≠ none)
  reads : ∀ u, O.Reads o u → O'.Reads o u ∨ O.Once u o
  quiet : CanonicalQuiet O' o

/-! ## Shapes -/

section

variable {rank : OperatorId → Nat}

/-- Operands and result of a convolution. Its result keeps its shape when parameters change that
mean the same for its image. -/
theorem Outline.Sound.convolution (h : O.Sound rank) (ho : O.operators o = some op)
    {p : Convolution α} (kind : op.kind = .convolution p) :
    ∃ x filter rest w image dims, op.inputs = x :: filter :: rest ∧ op.outputs = [w] ∧
      O.shape x = ImageShape.toShape image ∧ O.shape filter = p.layout.shape dims ∧
      ∀ p' : Convolution α, p'.kernel = p.kernel → p'.stride = p.stride →
        p'.margins image.extent = p.margins image.extent →
        convolutionShape p' (image.toShape :: p'.layout.shape dims :: rest.map O.shape) =
          .ok (O.shape w) := by
  obtain ⟨w, hw, typed⟩ := h.result ho
  rw [kind] at typed
  obtain ⟨xs, ws, bias, shapes, result⟩ := convolutionShape_ok_iff.1 typed
  obtain ⟨image, dims, out, rfl, rfl, vector, inputs, kernel, window, hs⟩ :=
    convolutionResult_ok_iff.1 result
  obtain ⟨x, _, hx, shape_x, shapes⟩ := List.map_eq_cons_iff.1 shapes
  obtain ⟨filter, rest, rfl, shape_filter, hrest⟩ := List.map_eq_cons_iff.1 shapes
  refine ⟨x, filter, rest, w, image, dims, hx, hw, shape_x, shape_filter,
    fun p' kernel' stride' margins' => ?_⟩
  rw [hrest]
  refine convolutionShape_ok_iff.2 ⟨_, _, bias, rfl, convolutionResult_ok_iff.2 ⟨image, dims, out,
    rfl, rfl, vector, inputs, kernel.trans kernel'.symm, ?_, hs⟩⟩
  rw [kernel', stride', margins']
  exact window

theorem Outline.Sound.pooling (h : O.Sound rank) (ho : O.operators o = some op)
    {p : Pooling} (kind : op.kind = .pooling p) :
    ∃ x w image, op.inputs = [x] ∧ op.outputs = [w] ∧ O.shape x = ImageShape.toShape image ∧
      ∀ p' : Pooling, p'.kernel = p.kernel → p'.stride = p.stride →
        p'.effectiveMargins image.extent = p.effectiveMargins image.extent →
        poolingShape p' [image.toShape] = .ok (O.shape w) := by
  obtain ⟨w, hw, typed⟩ := h.result ho
  rw [kind] at typed
  obtain ⟨image, out, shapes, window, hs⟩ := poolingShape_ok_iff.1 typed
  obtain ⟨x, rest, hx, shape_x, hrest⟩ := List.map_eq_cons_iff.1 shapes
  rw [List.map_eq_nil_iff] at hrest
  refine ⟨x, w, image, by rw [hx, hrest], hw, shape_x, fun p' kernel' stride' margins' => ?_⟩
  refine poolingShape_ok_iff.2 ⟨image, out, rfl, ?_, hs⟩
  rw [kernel', stride', margins']
  exact window

end

/-! ## What a step looks for -/

section

variable {g : Graph α} {rank : OperatorId → Nat}

/-- The filter that a step reorders, with its new shape and payload. -/
def filterSite? (g : Graph α) (op : Operator α) (p : Convolution α) :
    Option (VariableId × Shape × Array α) := do
  let filter ← op.inputs[1]?
  let (shape, payload) ← reorderedFilter? g op.id p filter
  return (filter, shape, payload)

theorem reorderable_of_site (h : g.Linked) (ho : g.operatorAt? o = some op) {p : Convolution α}
    (found : filterSite? g op p ≠ none) : Reorderable g.outline o op p := by
  obtain ⟨site, found⟩ := Option.ne_none_iff_exists'.1 found
  obtain ⟨filter, hfilter, found⟩ := Option.bind_eq_some_iff.1 found
  obtain ⟨⟨shape, payload⟩, found, _⟩ := Option.bind_eq_some_iff.1 found
  unfold reorderedFilter? at found
  split at found
  · next wanted =>
    rw [h.operator_id ho] at wanted
    obtain ⟨once, out⟩ := (singleUseConsumer?_iff h).1 wanted.2
    obtain ⟨payload, constant, _⟩ := Option.bind_eq_some_iff.1 found
    rw [payload?_eq] at constant
    match inputs : op.inputs, hfilter with
    | x :: _ :: rest, rfl =>
      exact ⟨wanted.1, x, filter, rest, inputs, by rw [constant]; exact (nomatch ·), once, out⟩
  · cases found

theorem site_of_reorderable (h : g.Linked) (ho : g.operatorAt? o = some op) {p : Convolution α}
    {x filter : VariableId} {rest : List VariableId} (inputs : op.inputs = x :: filter :: rest)
    {dims : FilterDims} (shape : g.outline.shape filter = p.layout.shape dims)
    (reorderable : Reorderable g.outline o op p) :
    ∃ weights reordered : Array α,
      filterSite? g op p = some (filter, FilterLayout.ohwi.shape dims, reordered) ∧
      g.outline.payload? filter = some weights ∧
      Kernel.reorderFilter weights dims = some reordered ∧
      reordered.size = (FilterLayout.ohwi.shape dims).size ∧ g.outline.Once filter o := by
  obtain ⟨layout, x', filter', rest', inputs', constant, once, out⟩ := reorderable
  obtain ⟨rfl, e⟩ := List.cons.inj (inputs.symm.trans inputs')
  obtain ⟨rfl, rfl⟩ := List.cons.inj e
  obtain ⟨payload, hpayload⟩ := Option.ne_none_iff_exists'.1 constant
  rw [layout] at shape
  have size : payload.size = (FilterLayout.oihw.shape dims).size := by
    rw [payload?_size h hpayload, shape]
  obtain ⟨reordered, run, size'⟩ := Kernel.reorderFilter_total size
  refine ⟨payload, reordered, ?_, hpayload, run, size', once⟩
  have single : g.singleUseConsumer? filter = some op.id := by
    rw [h.operator_id ho]
    exact (singleUseConsumer?_iff h).2 ⟨once, out⟩
  have found : reorderedFilter? g op.id p filter =
      some (FilterLayout.ohwi.shape dims, reordered) := by
    rw [reorderedFilter?, if_pos ⟨layout, single⟩, payload?_eq, hpayload, shape_eq, shape]
    simp only [Option.bind_eq_bind, Option.bind_some, FilterLayout.dims?_shape, run]
    rfl
  simp only [filterSite?, inputs, List.getElem?_cons_succ, List.getElem?_cons_zero,
    Option.bind_eq_bind, Option.bind_some, found]
  rfl

/-! ## Changes -/

/-- An operator changes its kind alone. -/
theorem setKind_collapse (h : g.Linked) (sound : g.outline.Sound rank)
    (ho : g.operatorAt? o = some op) (kind : OperatorKind α)
    (rewritten : ∀ O', Rewritten g.outline O' op { op with kind := kind })
    (writes : op.outputs = [w])
    (typed : kind.outputShape (op.inputs.map g.outline.shape) = .ok (g.outline.shape w)) :
    ∃ O', Yields (Edit.setKind op.id kind) g ⟨⟩ O' ∧
      O'.operators o = some { op with kind := kind } ∧
      (∀ q filter, O'.Once filter q → g.outline.Once filter q) ∧
      O'.tensors = g.outline.tensors ∧ O'.outputs = g.outline.outputs ∧
      (CanonicalQuiet O' o → CanonicalChange rank g.outline o O') := by
  let op' : Operator α := { op with kind := kind }
  let O' := g.outline.setOperator o (some op')
  have yields : Yields (Edit.setKind op.id kind) g ⟨⟩ O' := by
    rw [h.operator_id ho]
    exact setKind_yields h ho kind
  have host : O'.operators o = some op' := by simp [O']
  refine ⟨O', yields, host, fun q filter once => once.of_inputs fun c => ?_, rfl, rfl,
    fun quiet => ⟨⟨op, op', w, ho, ?_, rewritten O', fun constants => constants⟩,
      fun u read => .inl ?_, quiet⟩⟩
  · by_cases e : c = o
    · rw [e, host, outline_operators, ho]
      rfl
    · simp [O', e]
  · refine collapse_self sound ho ?_ rfl writes typed (fun u hu => .inr hu) (fun u hu _ => hu)
      fun u _ _ count => count
    exact (extends_refl sound.positive).splice_one ho
  · obtain ⟨op₀, ho₀, hu⟩ := read
    cases ho.symm.trans ho₀
    exact ⟨op', host, hu⟩

omit [Scalar α] in
/-- An operand that is read once, and what the operands are with another one in its place. -/
theorem replaced_operand {x filter : VariableId} {rest : List VariableId}
    (count : (x :: filter :: rest).count filter = 1) (new : VariableId) :
    (x :: filter :: rest).map (fun v => if v = filter then new else v) = x :: new :: rest := by
  have first : x ≠ filter := fun e => by
    rw [e, List.count_cons_self, List.count_cons_self] at count
    omega
  rw [List.count_cons_of_ne first, List.count_cons_self] at count
  have absent : filter ∉ rest := List.count_eq_zero.1 (by omega)
  have kept : rest.map (fun v => if v = filter then new else v) = rest.map id :=
    List.map_congr_left fun v hv => if_neg fun e : v = filter => absent (e ▸ hv)
  rw [List.map_cons, List.map_cons, if_neg first, if_pos rfl, kept, List.map_id]

omit [Scalar α] in
/-- A new constant, read in the place of the filter, and another kind. -/
theorem reorder_yields (ho : g.operatorAt? o = some op) {x filter new : VariableId}
    {rest : List VariableId} (inputs : op.inputs = x :: filter :: rest)
    (once : g.outline.Once filter o) {add : Edit α VariableId} {O₁ : Outline α}
    (added : Yields add g new O₁) (grows : Extends g.outline O₁) (live : O₁.Live new)
    (kind : OperatorKind α) (report : PassReport) : Yields (do
      let reordered ← add
      Edit.replaceInput o filter reordered
      Edit.setKind o kind
      return report) g report
        (O₁.setOperator o (some { op with kind, inputs := x :: new :: rest })) := by
  obtain ⟨⟨op₀, ho₀, count⟩, _⟩ := once
  cases ho.symm.trans ho₀
  refine added.bind fun g₁ h₁ e₁ => ?_
  have ho₁ : g₁.operatorAt? o = some op := by
    rw [← outline_operators, e₁, grows.operators]
    exact ho
  have mem : filter ∈ op.inputs := by rw [inputs]; simp
  have replaced := replaceInput_yields h₁ ho₁ (e₁ ▸ live) mem
  rw [inputs] at count
  rw [inputs, replaced_operand count] at replaced
  refine replaced.bind fun g₂ h₂ e₂ => ?_
  have ho₂ : g₂.operatorAt? o = some { op with inputs := x :: new :: rest } := by
    rw [← outline_operators, e₂]; simp
  refine (setKind_yields h₂ ho₂ kind).bind fun g₃ h₃ e₃ => ⟨g₃, rfl, h₃, ?_⟩
  rw [e₃, e₂, e₁, Outline.setOperator_setOperator]

theorem reorder_collapse (h : g.Linked) (sound : g.outline.Sound rank)
    (ho : g.operatorAt? o = some op) {x filter new : VariableId} {rest : List VariableId}
    (inputs : op.inputs = x :: filter :: rest) (writes : op.outputs = [w]) {O₁ : Outline α}
    (grows : Extends g.outline O₁) {shape : Shape} (new_shape : O₁.shape new = shape)
    (new_constant : O₁.payload? new ≠ none) (dead : ¬g.outline.Live new)
    (constant : g.outline.payload? filter ≠ none) {p' : Convolution α}
    (typed : convolutionShape p' (g.outline.shape x :: shape :: rest.map g.outline.shape) =
      .ok (g.outline.shape w)) :
    let op' : Operator α := { op with kind := .convolution p', inputs := x :: new :: rest }
    Collapse rank g.outline (O₁.setOperator o (some op')) o o [] op' w := by
  have live {u : VariableId} (hu : u ∈ x :: filter :: rest) : g.outline.Live u :=
    h.input_live ⟨op, ho, inputs ▸ hu⟩
  refine collapse_self sound ho (grows.splice_one ho) rfl writes ?_ (fun u hu => ?_)
    (fun u hu unset => ?_) fun u hu unset count => ?_
  · show convolutionShape p' (O₁.shape x :: O₁.shape new :: rest.map O₁.shape) = _
    have same : rest.map O₁.shape = rest.map g.outline.shape := List.map_congr_left fun u hu =>
      grows.shape_eq (live (List.mem_cons_of_mem x (List.mem_cons_of_mem filter hu)))
    rw [new_shape, same, grows.shape_eq (live List.mem_cons_self)]
    exact typed
  · rw [inputs]
    rcases List.mem_cons.1 hu with rfl | hu
    · exact .inr List.mem_cons_self
    · rcases List.mem_cons.1 hu with rfl | hu
      · exact .inl new_constant
      · exact .inr (List.mem_cons_of_mem _ (List.mem_cons_of_mem _ hu))
  · rw [inputs] at hu
    rcases List.mem_cons.1 hu with rfl | hu
    · exact List.mem_cons_self
    · rcases List.mem_cons.1 hu with rfl | hu
      · exact absurd unset constant
      · exact List.mem_cons_of_mem _ (List.mem_cons_of_mem _ hu)
  · have other : new ≠ u := fun e => dead (e ▸ hu)
    have count : (x :: new :: rest).count u = 1 := count
    have ne : filter ≠ u := fun e => constant (e ▸ unset)
    rw [List.count_cons, List.count_cons_of_ne other] at count
    rw [inputs, List.count_cons, List.count_cons_of_ne ne, count]

/-- A convolution gets a filter in the other order. -/
theorem reorder_change (h : g.Linked) (sound : g.outline.Sound rank)
    (ho : g.operatorAt? o = some op) {p' : Convolution α}
    {x filter : VariableId} {rest : List VariableId} (inputs : op.inputs = x :: filter :: rest)
    (writes : op.outputs = [w]) {shape : Shape} {payload : Array α}
    (size : payload.size = shape.size) (once : g.outline.Once filter o)
    (constant : g.outline.payload? filter ≠ none) (positive : 0 ∉ shape)
    (typed : convolutionShape p' (g.outline.shape x :: shape :: rest.map g.outline.shape) =
      .ok (g.outline.shape w))
    (rewritten : ∀ O' new, O'.shape new = shape → O'.payload? new = some payload →
      Rewritten g.outline O' op { op with kind := .convolution p', inputs := x :: new :: rest })
    (layout : p'.layout = .ohwi) (explicit : p'.padding.isExplicit = true) (report : PassReport) :
    ∃ O', Yields (do
      let reordered ← Edit.addConstant (g.derivedName filter "ohwi") shape payload
      Edit.replaceInput op.id filter reordered
      Edit.setKind op.id (.convolution p')
      return report.record 0) g (report.record 0) O' ∧ CanonicalChange rank g.outline o O' := by
  obtain ⟨new, O₁, added, grows, new_payload, new_shape, dead⟩ :=
    addConstant_extends h (g.derivedName filter "ohwi") shape size positive
  have new_constant : O₁.payload? new ≠ none := by
    rw [new_payload]
    exact (nomatch ·)
  let op' : Operator α := { op with kind := .convolution p', inputs := x :: new :: rest }
  let O' := O₁.setOperator o (some op')
  have host : O'.operators o = some op' := by simp [O']
  rw [h.operator_id ho]
  refine ⟨O', reorder_yields ho inputs once added grows (Outline.live_of_payload new_constant) _ _,
    ⟨op, op', w, ho, ?_, rewritten O' new new_shape new_payload, fun constants u hu => ?_⟩,
    fun u read => ?_, fun {op'' p''} live kind'' => ?_, fun {op'' p''} live kind'' => ?_⟩
  · exact reorder_collapse h sound ho inputs writes grows new_shape new_constant dead constant typed
  · rw [inputs] at hu
    rcases List.mem_cons.1 hu with rfl | hu
    · exact constant
    · have live : g.outline.Live u := h.input_live ⟨op, ho, by
        rw [inputs]
        exact List.mem_cons_of_mem _ (List.mem_cons_of_mem _ hu)⟩
      rw [← grows.payload?_eq live]
      exact constants u (List.mem_cons_of_mem _ hu)
  · by_cases e : u = filter
    · exact .inr (e ▸ once)
    · have hu := (Outline.reads_iff ho).1 read
      rw [inputs] at hu
      refine .inl ⟨op', host, ?_⟩
      rcases List.mem_cons.1 hu with rfl | hu
      · exact List.mem_cons_self
      · have hu := (List.mem_cons.1 hu).resolve_left e
        exact List.mem_cons_of_mem _ (List.mem_cons_of_mem _ hu)
  · cases host.symm.trans live
    cases kind''
    exact ⟨explicit, fun reorderable => nomatch layout.symm.trans reorderable.1⟩
  · cases host.symm.trans live
    cases kind''

/-! ## The step -/

theorem canonicalStep_eq (op : Operator α) (report : PassReport) {x : VariableId}
    {image : ImageShape} (input : op.input? = some x) (shape : g.outline.shape x = image.toShape) :
    canonicalStep op report g = (match op.kind with
      | .convolution p => canonicalConvolution op p image report
      | .pooling p => canonicalPooling op p image report
      | _ => return report : Edit α PassReport) g := by
  have found : (op.input?.bind fun x => ImageShape.ofShape? (g.shape x)) = some image := by
    rw [input, Option.bind_some, shape_eq, shape]
    exact ofShape?_eq_some.2 rfl
  rw [canonicalStep, run_bind_ok (run_get g)]
  generalize (op.input?.bind fun x => ImageShape.ofShape? (g.shape x)) = image? at found ⊢
  subst found
  rfl

theorem canonicalConvolution_eq (op : Operator α) (p : Convolution α) (image : ImageShape)
    (report : PassReport) : canonicalConvolution op p image report g =
      (match filterSite? g op p with
      | some (filter, shape, payload) => do
        let reordered ← Edit.addConstant (g.derivedName filter "ohwi") shape payload
        Edit.replaceInput op.id filter reordered
        Edit.setKind op.id
          (.convolution { p.withExplicitMargins ⟨image.height, image.width⟩ with layout := .ohwi })
        return report.record 0
      | none =>
        if p.padding.isExplicit then return report
        else do
          Edit.setKind op.id
            (.convolution (p.withExplicitMargins ⟨image.height, image.width⟩))
          return report.record 0 : Edit α PassReport) g := rfl

theorem canonicalStep_idle (h : g.Linked) (sound : g.outline.Sound rank)
    (ho : g.operatorAt? o = some op) (quiet : CanonicalQuiet g.outline o) (report : PassReport) :
    canonicalStep op report g = .ok report g := by
  cases kind : op.kind with
  | convolution p =>
    obtain ⟨x, filter, rest, w, image, dims, inputs, _, shape, _⟩ := sound.convolution ho kind
    obtain ⟨explicit, fixed⟩ := quiet.convolution ho kind
    have missing : filterSite? g op p = none := by
      by_contra found
      exact fixed (reorderable_of_site h ho found)
    rw [canonicalStep_eq op report (by rw [Operator.input?, inputs]; rfl) shape, kind]
    show canonicalConvolution op p image report g = _
    rw [canonicalConvolution_eq, missing]
    simp only [explicit, if_true]
    rfl
  | pooling p =>
    obtain ⟨x, w, image, inputs, _, shape, _⟩ := sound.pooling ho kind
    obtain ⟨ceil, explicit⟩ := quiet.pooling ho kind
    rw [canonicalStep_eq op report (by rw [Operator.input?, inputs]; rfl) shape, kind]
    show canonicalPooling op p image report g = _
    rw [canonicalPooling, ceil, explicit]
    rfl
  | _ =>
    rw [canonicalStep, run_bind_ok (run_get g), kind]
    cases op.input?.bind fun x => ImageShape.ofShape? (g.shape x) <;> rfl

theorem canonicalConvolution_outcome (h : g.Linked) (sound : g.outline.Sound rank)
    (ho : g.operatorAt? o = some op) {p : Convolution α} (kind : op.kind = .convolution p)
    (report : PassReport) (unquiet : ¬CanonicalQuiet g.outline o) :
    ∃ O', Yields (canonicalStep op report) g (report.record 0) O' ∧
      CanonicalChange rank g.outline o O' := by
  obtain ⟨x, filter, rest, w, image, dims, inputs, writes, shape, filter_shape, typed⟩ :=
    sound.convolution ho kind
  have input : op.input? = some x := by rw [Operator.input?, inputs]; rfl
  have step := canonicalStep_eq op report input shape
  rw [kind] at step
  by_cases reorderable : Reorderable g.outline o op p
  · obtain ⟨weights, reordered, site, payload, run, size, once⟩ :=
      site_of_reorderable h ho inputs filter_shape reorderable
    have layout := reorderable.1
    have positive : 0 ∉ FilterLayout.ohwi.shape dims := by
      have := sound.positive filter
      rw [filter_shape, layout] at this
      simp only [FilterLayout.shape, List.mem_cons, List.not_mem_nil, not_or] at this ⊢
      tauto
    let p' := { p.withExplicitMargins image.extent with layout := FilterLayout.ohwi }
    have typed' := typed p' rfl rfl rfl
    rw [← shape] at typed'
    rw [layout] at filter_shape
    obtain ⟨O', ⟨g', run, rest⟩, change⟩ := reorder_change h sound ho inputs writes size once
      (by rw [payload]; exact (nomatch ·)) positive typed'
      (fun _ new new_shape new_payload => .filter p image x filter new rest dims weights reordered
        kind inputs shape layout filter_shape payload run rfl rfl new_shape new_payload)
      rfl rfl report
    refine ⟨O', ⟨g', step.trans ?_, rest⟩, change⟩
    show canonicalConvolution op p image report g = _
    rw [canonicalConvolution_eq, site]
    exact run
  · have missing : filterSite? g op p = none := by
      by_contra found
      exact reorderable (reorderable_of_site h ho found)
    have implicit : p.padding.isExplicit = false := by
      by_contra explicit
      refine unquiet ⟨fun ho' kind' => ?_, fun ho' kind' => ?_⟩
      · cases ho.symm.trans ho'
        cases kind.symm.trans kind'
        exact ⟨Bool.not_eq_false _ ▸ explicit, reorderable⟩
      · cases ho.symm.trans ho'
        cases kind.symm.trans kind'
    have shapes : op.inputs.map g.outline.shape =
        image.toShape :: p.layout.shape dims :: rest.map g.outline.shape := by
      rw [inputs, List.map_cons, List.map_cons, shape, filter_shape]
    let p' := p.withExplicitMargins image.extent
    obtain ⟨O', ⟨g', run, linked, e⟩, host, once, tensors, outputs, change⟩ :=
      setKind_collapse h sound ho (.convolution p')
        (fun _ => .convolution p image x (filter :: rest) kind inputs shape rfl rfl) writes
        (by rw [shapes]; exact typed p' rfl rfl rfl)
    refine ⟨O', ⟨g', step.trans ?_, linked, e⟩,
      change ⟨fun live kind' => ?_, fun live kind' => ?_⟩⟩
    · show canonicalConvolution op p image report g = _
      rw [canonicalConvolution_eq, missing]
      simp only [implicit]
      exact run_bind_ok run
    · cases host.symm.trans live
      cases kind'
      refine ⟨rfl, fun ⟨layout, x', filter', rest', inputs', constant, once', out⟩ => reorderable
        ⟨layout, x', filter', rest', inputs', ?_, once _ _ once', outputs ▸ out⟩⟩
      rwa [Outline.payload?, tensors] at constant
    · cases host.symm.trans live
      cases kind'

theorem canonicalPooling_outcome (h : g.Linked) (sound : g.outline.Sound rank)
    (ho : g.operatorAt? o = some op) {p : Pooling} (kind : op.kind = .pooling p)
    (report : PassReport) (unquiet : ¬CanonicalQuiet g.outline o) :
    ∃ O', Yields (canonicalStep op report) g (report.record 0) O' ∧
      CanonicalChange rank g.outline o O' := by
  obtain ⟨x, w, image, inputs, writes, shape, typed⟩ := sound.pooling ho kind
  have step := canonicalStep_eq op report (by rw [Operator.input?, inputs]; rfl) shape
  rw [kind] at step
  have implicit : (p.ceilMode || !p.padding.isExplicit) = true := by
    by_contra canonical
    refine unquiet ⟨fun ho' kind' => ?_, fun ho' kind' => ?_⟩
    · cases ho.symm.trans ho'
      cases kind.symm.trans kind'
    · cases ho.symm.trans ho'
      cases kind.symm.trans kind'
      simpa using canonical
  let p' := p.withExplicitMargins image.extent
  obtain ⟨O', ⟨g', run, linked, e⟩, host, _, _, _, change⟩ :=
    setKind_collapse h sound ho (.pooling p')
      (fun _ => .pooling p image x kind inputs shape rfl rfl) writes
      (by rw [inputs, List.map_singleton, shape]; exact typed p' rfl rfl rfl)
  refine ⟨O', ⟨g', step.trans ?_, linked, e⟩, change ⟨fun live kind' => ?_, fun live kind' => ?_⟩⟩
  · show canonicalPooling op p image report g = _
    rw [canonicalPooling, implicit]
    exact run_bind_ok run
  · cases host.symm.trans live
    cases kind'
  · cases host.symm.trans live
    cases kind'
    exact ⟨rfl, rfl⟩

theorem canonicalStep_outcome (h : g.Linked) (sound : g.outline.Sound rank)
    (ho : g.operatorAt? o = some op) (report : PassReport) :
    CanonicalQuiet g.outline o ∨ ∃ report' O', report'.changed = true ∧
      Yields (canonicalStep op report) g report' O' ∧ CanonicalChange rank g.outline o O' := by
  by_cases quiet : CanonicalQuiet g.outline o
  · exact .inl quiet
  refine .inr ⟨report.record 0, ?_⟩
  cases kind : op.kind with
  | convolution p =>
    obtain ⟨O', outcome⟩ := canonicalConvolution_outcome h sound ho kind report quiet
    exact ⟨O', rfl, outcome⟩
  | pooling p =>
    obtain ⟨O', outcome⟩ := canonicalPooling_outcome h sound ho kind report quiet
    exact ⟨O', rfl, outcome⟩
  | _ =>
    refine absurd ⟨fun ho' kind' => ?_, fun ho' kind' => ?_⟩ quiet <;>
      cases ho.symm.trans ho' <;> cases kind.symm.trans kind'

theorem CanonicalChange.settles (h : g.Linked) (change : CanonicalChange rank g.outline o O')
    (before : ∀ q, rank q < rank o → CanonicalQuiet g.outline q) (q : OperatorId)
    (hq : rank q < rank o ∨ q = o) : CanonicalQuiet O' q := by
  obtain ⟨⟨op, op', w, ho, collapse, _⟩, reads, quiet⟩ := change
  by_cases e : q = o
  · exact e ▸ quiet
  have other : q ∉ [o] := fun hm => e (List.mem_singleton.1 hm)
  have quiet_q := before q (hq.resolve_right e)
  refine ⟨fun {opq p} live kind => ?_, fun live kind => ?_⟩
  · rw [collapse.operators_other q other] at live
    obtain ⟨explicit, fixed⟩ := quiet_q.convolution live kind
    refine ⟨explicit, fun ⟨layout, x, filter, rest, inputs, constant, once, out⟩ => fixed ⟨layout,
      x, filter, rest, inputs, ?_, ?_, ?_⟩⟩
    · have read : g.outline.Reads q filter :=
        ⟨opq, live, by rw [inputs]; exact List.mem_cons_of_mem x List.mem_cons_self⟩
      rwa [collapse.payload?_eq (h.input_live read)] at constant
    · obtain ⟨⟨opq', hq', count⟩, alone⟩ := once
      rw [collapse.operators_other q other] at hq'
      refine ⟨⟨opq', hq', count⟩, fun c read => ?_⟩
      by_cases hc : c = o
      · subst hc
        -- What `q` reads, the changed operator reads still, or never did.
        rcases reads filter read with read' | alone'
        · exact alone c read'
        · exact absurd (alone'.2 q ⟨opq', hq', List.count_pos_iff.1 (by omega)⟩) e
      · exact alone c (collapse.reads_other (List.mem_singleton.not.2 hc) read)
    · rwa [collapse.outputs] at out
  · rw [collapse.operators_other q other] at live
    exact quiet_q.pooling live kind

theorem canonicalStep_rule : StepRule (α := α) canonicalStep CanonicalQuiet CanonicalChange where
  dead ho := by
    refine ⟨fun live => ?_, fun live => ?_⟩ <;> cases ho.symm.trans live
  pruned quiet := by
    refine ⟨fun live kind => ?_, quiet.pooling⟩
    obtain ⟨explicit, fixed⟩ := quiet.convolution live kind
    exact ⟨explicit, fun ⟨layout, x, filter, rest, inputs, constant, once, out⟩ => fixed ⟨layout,
      x, filter, rest, inputs, Outline.payload?_of_pruned constant, once, out⟩⟩
  idle report h sound ho quiet := canonicalStep_idle h sound ho quiet report
  outcome report h sound ho := canonicalStep_outcome h sound ho report
  sound h sound change := by
    obtain ⟨_, _, _, _, collapse, _⟩ := change.collapse
    exact collapse.sound h sound
  keeps h sound change := by
    obtain ⟨_, _, _, _, collapse, _⟩ := change.collapse
    exact collapse.keeps h
  settles h _ change := change.settles h

end

end TensorGraph
