import TensorGraph.Guarded.Conversion
import TensorGraph.Proofs.Guarded.Evaluation
import TensorGraph.Proofs.Trace.Acceptance

/-!
# TensorGraph.Proofs.Guarded.Conversion

Conversions of traces with all their numbers guarded, beside the exact ones.

* `Trace.Measurable`: traces whose numbers fit a word.
* `Guarded.apply_agrees`, `Guarded.nodes_agrees`: one node, and all of them.
* `Trace.toGraph_accepts`: as long as numbers fit, exactly the well-formed traces have a graph,
  which is checked and depicts them. `hugeConstant_overflows` has too large a number.
-/

namespace TensorGraph

/-- The numbers that a conversion takes fit a word: it counts the elements of the constants, and it
computes the shapes of the results. -/
structure Trace.Measurable (t : Trace) : Prop where
  payloads : ∀ d ∈ t.tensors, d.payload ≠ none → Shape.Countable d.shape
  nodes : ∀ n ∈ t.nodes, ∀ operands y result kind, List.Forall₂ t.HasShape n.inputs operands →
    n.outputs = [y] → t.HasShape y result → n.Denotes operands result kind →
    kind.Measurable operands

namespace Guarded

open TensorGraph.Conversion (Names Built namesOf bare built_bare declareAll_ok_iff)

variable {free : Prop}

theorem declare_agrees (names : Names) {d : TracedVariable}
    (counted : free → d.payload ≠ none → Shape.Countable d.shape) (g : Graph Binary32) :
    Run.Agrees free (Conversion.declare names d) (TensorGraph.Conversion.declare names d) g := by
  refine (Run.Agrees.perform _ g).bind fun _ g₁ _ => .step (x := ⟨⟩) ?_ (.perform _ g₁)
  unfold Conversion.countPayload
  cases payload : d.payload with
  | none => exact .refl _
  | some p => exact (count_agrees fun fits => counted fits (by simp [payload])).map _

section

variable {t : Trace} {ns : List TracedNode} {g : Graph Binary32} (built : Built t ns g)
  (distinct : (t.tensors.map (·.name)).Nodup) (proper : ∀ d ∈ t.tensors, d.Proper)

include built distinct proper

/-- The operator of a node has the shapes that the trace declares, which are without zeros. -/
theorem apply_agrees {n : TracedNode} (mem : n ∈ t.nodes) (index : Nat) :
    Run.Agrees t.Measurable (Conversion.apply (namesOf t.tensors) n index)
      (TensorGraph.Conversion.apply (namesOf t.tensors) n index) g := by
  refine (Run.Agrees.perform _ g).bind fun op g₁ entered => ?_
  obtain ⟨vs, w, kind, ins, outs, denotes, good, run, rfl⟩ := (built.enter_iff distinct).1 entered
  obtain ⟨g₂, run', linked, outline, ho⟩ := built.added kind good
  cases run.symm.trans run'
  have shape (v : VariableId) : g₁.shape v = g.outline.shape v := by
    rw [Graph.shape_eq, outline]
    rfl
  have operands : List.Forall₂ t.HasShape n.inputs (vs.map g₁.shape) :=
    (built.shown.shapes_iff distinct ins).2 (List.map_congr_left fun v _ => shape v)
  obtain ⟨y, rest, named, none, one⟩ := List.forall₂_cons_right_iff.1 outs
  cases none
  have result : t.HasShape y (g.outline.shape w) := (built.shown.hasShape_iff distinct named).2 rfl
  have live (v : VariableId) (hv : v ∈ vs ++ [w]) : g₁.outline.Live v :=
    (List.mem_append.1 hv).elim (fun hv => linked.input_live ⟨_, ho, hv⟩)
      fun hv => linked.output_live ⟨_, ho, hv⟩
  have checked : Agrees (kind.Measurable (vs.map g₁.shape))
      (checkOperator g₁ (Edit.newOperator g kind vs [w]))
      (report (g₁.checkOperator (Edit.newOperator g kind vs [w]))) :=
    checkOperator_agrees live fun v _ => shape v ▸ built.shown.positive proper v
  refine .bind (.inl rfl) fun _ _ got => ?_
  cases got
  refine .of_lift (checked.mono fun fits : t.Measurable => ?_)
    (by cases g₁.checkOperator (Edit.newOperator g kind vs [w]) <;> rfl)
  refine fits.nodes n mem _ y _ kind operands one result ?_
  rwa [List.map_congr_left fun v _ => shape v]

/-- The nodes that are still to be added, to the graph of those that have been. -/
theorem nodes_agrees {rest : List (TracedNode × Nat)} (mem : ∀ p ∈ rest, p.1 ∈ t.nodes) :
    Run.Agrees t.Measurable
      (rest.forM fun p => Conversion.apply (namesOf t.tensors) p.1 p.2)
      (rest.forM fun p => TensorGraph.Conversion.apply (namesOf t.tensors) p.1 p.2) g := by
  refine .forM (P := fun rest g => (∃ ns, Built t ns g) ∧ ∀ p ∈ rest, p.1 ∈ t.nodes) ?_
    ⟨⟨ns, built⟩, mem⟩
  rintro ⟨n, index⟩ rest g ⟨⟨ns, built⟩, mem⟩
  refine ⟨apply_agrees built distinct proper (mem _ List.mem_cons_self) index, ?_⟩
  exact fun _ g' run => ⟨⟨ns ++ [n], built.step distinct run⟩,
    fun p hp => mem p (List.mem_cons_of_mem _ hp)⟩

end

theorem all_agrees (t : Trace) :
    Run.Agrees t.Measurable (Conversion.all t) (TensorGraph.Conversion.all t) .empty := by
  have each (d : TracedVariable) (hd : d ∈ t.tensors) (names : List (String × VariableId)) :=
    declare_agrees names fun (fits : t.Measurable) => fits.payloads d hd
  refine .bind (.foldlM each [] .empty) fun names g₀ declared => ?_
  have none_twice : (([] : List TracedVariable).map (·.name)).Nodup := List.nodup_nil
  obtain ⟨distinct, proper, rfl, rfl⟩ := (declareAll_ok_iff none_twice).1 declared
  refine .bind (nodes_agrees (built_bare proper) distinct proper fun p hp => ?_)
    fun _ g₁ _ => .perform _ g₁
  exact (List.mem_zipIdx hp).2.2 ▸ List.getElem_mem _

/-- A conversion has no fault but numbers that are too large. -/
theorem toGraph_agrees (t : Trace) : Agrees t.Measurable (toGraph t) (report t.toGraph) := by
  unfold toGraph Trace.toGraph
  rcases all_agrees t with same | ⟨big, g, stops⟩
  · rw [same, Run.perform]
    cases TensorGraph.Conversion.all t .empty <;> exact .refl _
  · rw [stops]
    exact .inr ⟨big, rfl⟩

end Guarded

/-- A conversion that ends with a graph is of a well-formed trace, and the graph is checked and
depicts the trace. One that ends with an error is of a trace that is not well-formed. Else a number
did not fit a word. Where all numbers fit, exactly the well-formed traces have a graph. -/
theorem Trace.toGraph_accepts (t : Trace) :
    (∀ g, Guarded.toGraph t = .ok g → t.WellFormed ∧ g.Checked ∧ t.Depicted g) ∧
    (∀ e, Guarded.toGraph t = .error (.error e) → ¬t.WellFormed) ∧
    (∀ f, Guarded.toGraph t = .error (.fault f) → f = .overflow ∧ ¬t.Measurable) ∧
    (t.Measurable → ((∃ g, Guarded.toGraph t = .ok g) ↔ t.WellFormed)) := by
  have guarded := Guarded.toGraph_agrees t
  refine ⟨fun g run => ?_, fun e refused good => ?_, fun f => guarded.overflow, fun fits => ?_⟩
  · have made := Guarded.report_eq_ok.1 (guarded.of_ok run)
    exact ⟨Conversion.wellFormed_of_ok made, Conversion.toGraph_checked made,
      Conversion.depicted_of_ok made⟩
  · have outcome := guarded.of_error refused
    obtain ⟨g, made⟩ := Conversion.ok_of_wellFormed good
    rw [made] at outcome
    cases outcome
  · rw [guarded.eq fits]
    constructor
    · rintro ⟨g, run⟩
      exact Conversion.wellFormed_of_ok (Guarded.report_eq_ok.1 run)
    · intro good
      obtain ⟨g, made⟩ := Conversion.ok_of_wellFormed good
      exact ⟨g, by rw [made, Guarded.report_ok]⟩

theorem Trace.classifier_measurable : classifier.Measurable where
  payloads := by decide
  nodes n mem operands y result kind shapes one shape denotes := by
    have nodes : classifier.nodes = [⟨"Linear", ["x", "w"], ["y"], []⟩,
        ⟨"Softmax", ["y"], ["z"], [("axis", .null)]⟩] := rfl
    rw [nodes, List.mem_cons, List.mem_singleton] at mem
    rcases mem with rfl | rfl
    · cases denotes with
      | linear =>
        have features : ∀ d ∈ classifier.tensors, Shape.Countable d.shape.tail := by decide
        obtain ⟨s, rest, ⟨d, hd, _, rfl⟩, _, rfl⟩ := List.forall₂_cons_left_iff.1 shapes
        rintro _ ⟨⟩
        exact features d hd
      | _ => simp_all
    · cases denotes <;> trivial

theorem Trace.toGraph_accepts_classifier : classifier.Measurable ∧ classifier.WellFormed ∧
    ∃ g, Guarded.toGraph classifier = .ok g ∧ g.Checked ∧ classifier.Depicted g := by
  obtain ⟨depicts, _, _, accepts⟩ := toGraph_accepts classifier
  have converts : (Guarded.toGraph classifier).toOption.isSome = true := by decide +kernel
  obtain ⟨g, run⟩ := Graph.except_exists_ok converts
  obtain ⟨_, checked, depicted⟩ := depicts g run
  exact ⟨classifier_measurable, (accepts classifier_measurable).1 ⟨g, run⟩, g, run, checked,
    depicted⟩

/-- A constant of one element with a shape of `3 * 12297829382473034411` elements, one more than a
multiple of `2 ^ 64`. -/
def Trace.hugeConstant : Trace :=
  Trace.empty.addConstant "c" [3, 12297829382473034411] #[1]
    |>.addVariable "y" [3, 12297829382473034411]
    |>.addNode "Softmax" ["c"] ["y"] (.object [("axis", .nat 0)])
    |>.designate [] ["y"]

/-- Every other window of one pixel on a column of `2 ^ 64 + 1`, all but one of them over
padding. -/
def Trace.farPooling : Trace :=
  Trace.empty.addVariable "x" [1, 1, 1, 1] |>.addVariable "y" [1, 1, 9223372036854775809, 1]
    |>.addNode "AveragePooling2D" ["x"] ["y"] (.object [("kh", .nat 1), ("kw", .nat 1),
      ("sy", .nat 2), ("sx", .nat 1), ("ph", .nat 9223372036854775808), ("pw", .nat 0)])
    |>.designate ["x"] ["y"]

/-- Neither is the trace with the constant refused, which is not well-formed, nor does the one with
the pooling have a graph, which is. -/
theorem Trace.hugeConstant_overflows :
    (¬hugeConstant.WellFormed ∧ Guarded.toGraph hugeConstant = .error (.fault .overflow)) ∧
    farPooling.WellFormed ∧ Guarded.toGraph farPooling = .error (.fault .overflow) := by
  have overflows {t : Trace} (h : (match Guarded.toGraph t with
      | .error stop => some stop
      | .ok _ => none) = some (.fault .overflow)) :
      Guarded.toGraph t = .error (.fault .overflow) := by
    cases run : Guarded.toGraph t <;> rw [run] at h <;> cases h
    rfl
  refine ⟨⟨fun good => ?_, overflows (by decide)⟩, ?_, overflows (by decide)⟩
  · have size := (good.tensors ⟨"c", [3, 12297829382473034411], none, some #[1]⟩
      List.mem_cons_self).size #[1] rfl
    revert size
    decide
  · have converts : farPooling.toGraph.toOption.isSome = true := by decide
    obtain ⟨g, run⟩ := Graph.except_exists_ok converts
    exact Conversion.wellFormed_of_ok run

end TensorGraph
