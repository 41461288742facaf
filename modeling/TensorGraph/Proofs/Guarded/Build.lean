import TensorGraph.Proofs.Guarded.Conversion
import TensorGraph.Proofs.Guarded.Optimizer
import TensorGraph.Proofs.Lowering.Outcome

/-!
# TensorGraph.Proofs.Guarded.Build

Builds with all their numbers guarded, beside the exact ones.

* `Trace.WithinWords`: traces whose numbers fit a word, and their constants memory.
* `Guarded.lower_agrees`, `Guarded.build_agrees`: a backend, and a whole build.
* `Trace.build_succeeds`: as long as numbers fit, a trace with a graph can be built for the fallback
  under all options, and for the device if this supports the graph that is lowered.
  `pooledPixel_overflows` has too large a number.
-/

namespace TensorGraph

/-- The numbers that conversion, passes and backends take fit a word: memory has room for every
tensor, and shape rules and kernels count no farther. -/
structure Trace.WithinWords (t : Trace) : Prop
    extends t.Measurable where
  room : ∀ d ∈ t.tensors, Shape.size d.shape < Guarded.bufferLimit
  indexable : ∀ n ∈ t.nodes, ∀ operands y result kind, List.Forall₂ t.HasShape n.inputs operands →
    n.outputs = [y] → t.HasShape y result → n.Denotes operands result kind →
    kind.Indexable operands

/-- The graph of a trace whose numbers fit. -/
theorem Trace.WithinWords.graph {t : Trace} (fits : t.WithinWords) {g : Graph Binary32}
    (h : t.toGraph = .ok g) : g.WithinWords := by
  obtain ⟨linked, O, outline, shown, _⟩ := Conversion.outline_of_ok h
  have distinct := (Conversion.wellFormed_of_ok h).distinct
  have depicted := Conversion.depicted_of_ok h
  have node {op : Operator Binary32} (live : op ∈ g.liveOperators) :
      op.kind.Measurable (op.inputs.map g.shape) ∧ op.kind.Indexable (op.inputs.map g.shape) := by
    have ho := (Graph.mem_liveOperators linked).1 live
    have found : O.operators op.id = some op := by
      rw [← Graph.outline_operators, outline] at ho
      exact ho
    obtain ⟨n, hn, lowers⟩ := shown.operator found
    have mem := List.mem_of_getElem? hn
    have read (v : VariableId) (hv : v ∈ op.inputs) : g.shape v = O.shape v := by
      rw [Graph.shape_eq, outline, Outline.pruned_shape (.inr (.inl ⟨op.id, op, found, hv⟩))]
    rw [List.map_congr_left read]
    obtain ⟨operands, y, result, shapes, one, shape, denotes, _⟩ := lowers.applies
    cases (shown.shapes_iff distinct lowers.inputs).1 shapes
    exact ⟨fits.nodes n mem _ y result op.kind shapes one shape denotes,
      fits.indexable n mem _ y result op.kind shapes one shape denotes⟩
  refine ⟨fun x hx => ?_, fun op live => (node live).1, fun op live => (node live).2⟩
  obtain ⟨d, hd, _, shape, _⟩ := depicted.tensors x.id x ((Graph.mem_liveVariables linked).1 hx)
  rw [shape]
  exact fits.room d (List.mem_of_getElem? hd)

theorem Trace.WithinWords.optimizedGraph {t : Trace} (fits : t.WithinWords)
    {options : BuildOptions} {s s' : Snapshots} {g : Graph Binary32}
    (run : t.optimizedGraph options s = .ok g s') : g.WithinWords := by
  obtain ⟨g₀, s₁, converted, run⟩ := Edit.run_bind_ok_iff.1 run
  have made := (Recorded.lift_ok_iff.1 converted).1
  obtain ⟨_, s₂, _, run⟩ := Edit.run_bind_ok_iff.1 run
  cases optimized : options.optimize with
  | false =>
    rw [optimized] at run
    cases run
    exact fits.graph made
  | true =>
    rw [optimized] at run
    exact (fits.graph made).optimize (Conversion.toGraph_checked made).tidy run

namespace Guarded

variable {free : Prop}

/-! ## Backends on a checked graph -/

section

variable {α : Type} [Scalar α] {g : Graph α}

theorem countVariables_agrees (tidy : g.Tidy) (fits : free → g.WithinWords) :
    Agrees free (countVariables g) (.ok ⟨⟩) := by
  obtain ⟨rank, sound⟩ := tidy.sound
  refine .forM fun x hx => ?_
  have live := (Graph.mem_liveVariables tidy.linked).1 hx
  have shape : g.shape x.id = x.shape := by rw [Graph.shape, live]
  rw [← shape]
  exact (count_shape_agrees sound fun h =>
    (fits h).size_lt tidy.linked (Graph.live_iff.2 ⟨x, live⟩)).map _

omit [Scalar α] in
theorem countWindow_agrees {op : Operator α} {shapes : List Shape}
    (fits : free → op.kind.Indexable shapes) : Agrees free (countWindow op) (.ok ⟨⟩) := by
  unfold countWindow
  cases kind : op.kind with
  | pooling p =>
    simp only
    cases mode : p.mode with
    | max => exact .refl _
    | average =>
      rw [kind] at fits
      exact (times_agrees fun h => (fits h).2 mode).map _
  | _ => exact .refl _

theorem lower_agrees (tidy : g.Tidy) (fits : free → g.WithinWords) (options : BuildOptions) :
    Agrees free (lower g options) (report (g.lower options)) := by
  have counted := countVariables_agrees tidy fits
  unfold lower
  cases options.backend with
  | fallback =>
    cases g.lower options with
    | error e => exact .refl _
    | ok artifacts => exact counted.step (.refl _)
  | webgpu =>
    refine counted.step ?_
    cases g.lower options with
    | error e => exact .refl _
    | ok artifacts =>
      rw [report_ok, Graph.except_ok_bind]
      exact Agrees.step
        (.forM fun op live => countWindow_agrees fun h => (fits h).indexable op live) (.refl _)

/-- What is lowered is what the exact backend lowers. -/
theorem lower_ok {options : BuildOptions} {a : Artifacts α} (h : lower g options = .ok a) :
    g.lower options = .ok a := by
  unfold lower at h
  cases backend : options.backend with
  | fallback =>
    rw [backend] at h
    obtain ⟨a', run, h⟩ := Graph.except_bind_ok_iff.1 h
    obtain ⟨_, _, e⟩ := Graph.except_bind_ok_iff.1 h
    cases e
    exact report_eq_ok.1 run
  | webgpu =>
    rw [backend] at h
    obtain ⟨_, _, h⟩ := Graph.except_bind_ok_iff.1 h
    obtain ⟨a', run, h⟩ := Graph.except_bind_ok_iff.1 h
    obtain ⟨_, _, e⟩ := Graph.except_bind_ok_iff.1 h
    cases e
    exact report_eq_ok.1 run

end

/-! ## From a trace to its artifacts -/

variable {t : Trace} {options : BuildOptions} {s : Snapshots}

theorem optimizedGraph_agrees (t : Trace) (options : BuildOptions) (s : Snapshots) :
    Run.Agrees t.WithinWords (optimizedGraph t options) (t.optimizedGraph options) s := by
  have converted := (toGraph_agrees t).mono fun fits : t.WithinWords => fits.toMeasurable
  refine (Run.Agrees.of_lift converted (by cases t.toGraph <;> rfl)).bind fun g s₁ lifted => ?_
  have made := (Recorded.lift_ok_iff.1 lifted).1
  refine (Run.Agrees.perform _ s₁).bind fun _ s₂ _ => ?_
  cases options.optimize with
  | false => exact .pure g s₂
  | true =>
    have tidy := (Conversion.toGraph_checked made).tidy
    exact optimize_agrees tidy (fun fits => (fits.graph made).fits tidy.linked) _ s₂

theorem build_agrees (t : Trace) (options : BuildOptions) (s : Snapshots) :
    Run.Agrees t.WithinWords (build t options) (t.build options) s := by
  refine (optimizedGraph_agrees t options s).bind fun g s₁ run => ?_
  refine (Run.Agrees.perform _ s₁).bind fun _ s₂ _ => ?_
  obtain ⟨g₀, made⟩ := Trace.optimizedGraph_succeeds_iff.1 ⟨g, s₁, run⟩
  obtain ⟨_, _, run', checked⟩ := Trace.optimizedGraph_ok options s made
  cases run.symm.trans run'
  exact .of_lift (lower_agrees checked.tidy (fun fits => fits.optimizedGraph run) options)
    (by cases g.lower options <;> rfl)

/-- A number is too large on the way to the artifacts. -/
def Overflows (t : Trace) (options : BuildOptions) (s : Snapshots) : Prop :=
  ∃ s', build t options s = .error (.fault .overflow) s'

/-- Without such a number all stages give what the exact ones give. -/
theorem exact_of_fits (fits : ¬Overflows t options s) : toGraph t = report t.toGraph ∧
    optimizedGraph t options s = Run.perform (t.optimizedGraph options) s ∧
    build t options s = Run.perform (t.build options) s := by
  have optimized : optimizedGraph t options s = Run.perform (t.optimizedGraph options) s := by
    rcases optimizedGraph_agrees t options s with same | ⟨_, s', stops⟩
    · exact same
    · exact absurd ⟨s', Edit.run_bind_error stops⟩ fits
  have converted : toGraph t = report t.toGraph := by
    rcases toGraph_agrees t with same | ⟨_, stops⟩
    · exact same
    · have stopped : optimizedGraph t options s = .error (.fault .overflow) s := by
        rw [optimizedGraph, stops]
        rfl
      exact absurd (optimized.symm.trans stopped) (Run.perform_ne_fault _ s s .overflow)
  refine ⟨converted, optimized, ?_⟩
  rcases build_agrees t options s with same | ⟨_, s', stops⟩
  · exact same
  · exact absurd ⟨s', stops⟩ fits

end Guarded

/-- A build is at fault where a number does not fit a word, and nowhere else. Without such a number,
a trace can be built for the fallback exactly if it has a graph, whatever the optimizer is told to
do, and for the device if this supports the graph that is lowered as well. Artifacts of one graph
agree on all that does not depend on the backend. -/
theorem Trace.build_succeeds (t : Trace) (options : BuildOptions) (s : Snapshots) :
    (∀ f s', Guarded.build t options s = .error (.fault f) s' →
      f = .overflow ∧ ¬t.WithinWords) ∧
    (¬Guarded.Overflows t options s →
      ((∃ g s', Guarded.optimizedGraph t options s = .ok g s') ↔
        ∃ g, Guarded.toGraph t = .ok g) ∧
      (options.backend = .fallback → ((∃ a s', Guarded.build t options s = .ok a s') ↔
        ∃ g, Guarded.toGraph t = .ok g)) ∧
      (options.backend = .webgpu → ((∃ a s', Guarded.build t options s = .ok a s') ↔
        (∃ g, Guarded.toGraph t = .ok g) ∧
          ∃ g s', Guarded.optimizedGraph t options s = .ok g s' ∧ Device.Supports g))) ∧
    ∀ (g : Graph Binary32) (options options' : BuildOptions) (a a' : Artifacts Binary32),
      Guarded.lower g options = .ok a → Guarded.lower g options' = .ok a' →
      a.descriptor.interface = a'.descriptor.interface ∧ a.weights = a'.weights ∧
        a.descriptor.accesses = a'.descriptor.accesses := by
  refine ⟨fun f s' fault => ?_, fun fits => ?_, fun g options options' a a' h h' =>
    Graph.lower_alike (Guarded.lower_ok h) (Guarded.lower_ok h')⟩
  · rcases Guarded.build_agrees t options s with same | ⟨big, s'', stops⟩
    · exact absurd (same.symm.trans fault) (Guarded.Run.perform_ne_fault _ s s' f)
    · cases stops.symm.trans fault
      exact ⟨rfl, big⟩
  · obtain ⟨converted, optimized, built⟩ := Guarded.exact_of_fits fits
    simp only [converted, optimized, built, Guarded.report_eq_ok, Guarded.Run.perform_eq_ok]
    exact ⟨optimizedGraph_succeeds_iff, build_fallback_iff, build_webgpu_iff⟩

/-- A response normalization with default parameters. -/
def Trace.normalizedImage : Trace :=
  Trace.empty.addVariable "x" [1, 1, 2, 2] |>.addVariable "y" [1, 1, 2, 2]
    |>.addNode "LocalResponseNormalization" ["x"] ["y"] (.object [])
    |>.designate ["x"] ["y"]

theorem Trace.normalizedImage_withinWords : normalizedImage.WithinWords where
  payloads := by decide
  room := by decide
  nodes n mem operands y result kind shapes one shape denotes := by
    obtain rfl := List.mem_singleton.1 mem
    cases denotes <;> trivial
  indexable n mem operands y result kind shapes one shape denotes := by
    obtain rfl := List.mem_singleton.1 mem
    cases denotes with
    | responseNormalization _ _ five =>
      have size : ∀ d ∈ normalizedImage.tensors, ∀ i ∈ ImageShape.ofShape? d.shape,
          i.channels + 5 < Guarded.wordLimit := by decide
      obtain ⟨s, rest, ⟨d, hd, _, rfl⟩, _, rfl⟩ := List.forall₂_cons_left_iff.1 shapes
      rcases five with ⟨_, rfl⟩ | ⟨v, given, _⟩
      · exact fun image h => size d hd image h
      · cases given
    | _ => trivial

theorem Trace.build_succeeds_normalizedImage : normalizedImage.WithinWords ∧
    (∃ a s', Guarded.build normalizedImage (.forBackend .fallback) .unwanted = .ok a s') ∧
      ¬∃ a s', Guarded.build normalizedImage (.forBackend .webgpu) .unwanted = .ok a s' := by
  have fits := normalizedImage_withinWords
  have whole (backend : Backend) :
      ¬Guarded.Overflows normalizedImage (.forBackend backend) .unwanted := fun ⟨s', stops⟩ =>
    ((build_succeeds normalizedImage (.forBackend backend) .unwanted).1 .overflow s' stops).2 fits
  have normalizes : (match
      Guarded.optimizedGraph normalizedImage (.forBackend .webgpu) .unwanted with
      | .ok g _ => g.liveOperators.any fun op => (op.kind matches .responseNormalization _)
      | .error _ _ => false) = true := by decide +kernel
  obtain ⟨_, fallback, _⟩ :=
    (build_succeeds normalizedImage (.forBackend .fallback) .unwanted).2.1 (whole .fallback)
  obtain ⟨converted, _, device⟩ :=
    (build_succeeds normalizedImage (.forBackend .webgpu) .unwanted).2.1 (whole .webgpu)
  refine ⟨fits, ?_, fun built => ?_⟩
  · refine (fallback rfl).2 (converted.1 ?_)
    cases run : Guarded.optimizedGraph normalizedImage (.forBackend .webgpu) .unwanted with
    | ok g s' => exact ⟨g, s', rfl⟩
    | error e s' =>
      rw [run] at normalizes
      cases normalizes
  · obtain ⟨_, g, s', run, supports⟩ := (device rfl).1 built
    rw [run] at normalizes
    obtain ⟨op, live, kind⟩ := List.any_eq_true.1 normalizes
    split at kind
    · next p normal => exact supports.operators op live p normal
    · cases kind

/-- Two poolings of a constant pixel. The margins of the first one make a tensor of
`3 * 12297829382473034411` elements of it, one more than a multiple of `2 ^ 64`. -/
def Trace.pooledPixel : Trace :=
  Trace.empty.addConstant "c" [1, 1, 1, 1] #[1] |>.addVariable "m" [1, 1, 3, 12297829382473034411]
    |>.addVariable "y" [1, 1, 1, 1]
    |>.addNode "MaxPooling2D" ["c"] ["m"] (.object [("kh", .nat 1), ("ph", .nat 1),
      ("pw", .nat 6148914691236517205)])
    |>.addNode "MaxPooling2D" ["m"] ["y"] (.object [("kh", .nat 3),
      ("kw", .nat 12297829382473034411)])
    |>.designate [] ["y"]

/-- The trace has a graph, but there is no build of it for the fallback: the optimizer asks for the
tensor, and so does the list of all variables if the optimizer does not run. -/
theorem Trace.pooledPixel_overflows : (∃ g, Guarded.toGraph pooledPixel = .ok g) ∧
    ∀ optimize, Guarded.Overflows pooledPixel { BuildOptions.forBackend .fallback with optimize }
      .unwanted := by
  have converts : (Guarded.toGraph pooledPixel).toOption.isSome = true := by decide +kernel
  have stops : ∀ optimize, (match Guarded.build pooledPixel
      { BuildOptions.forBackend .fallback with optimize } .unwanted with
      | .error stop _ => some stop
      | .ok _ _ => none) = some (.fault .overflow) := by decide +kernel
  refine ⟨Graph.except_exists_ok converts, fun optimize => ?_⟩
  have stop := stops optimize
  unfold Guarded.Overflows
  cases run : Guarded.build pooledPixel { BuildOptions.forBackend .fallback with optimize }
      .unwanted with
  | error e s' =>
    rw [run] at stop
    cases Option.some.inj stop
    exact ⟨s', rfl⟩
  | ok a s' =>
    rw [run] at stop
    cases stop

end TensorGraph
