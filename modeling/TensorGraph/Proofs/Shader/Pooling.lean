import TensorGraph.Proofs.Evaluation.Maximum
import TensorGraph.Proofs.Shader.Agreement
import TensorGraph.Proofs.Shader.Straight

/-!
# TensorGraph.Proofs.Shader.Pooling

What kernels of poolings store.

* `KernelSpec.windowResult`: what they make of the numbers under a window.
* `KernelSpec.pooled_run`: the straight code for a window stores it, and nothing else.
* `KernelSpec.maxPooling_stores`: beside what the evaluator makes of them.
-/

namespace TensorGraph

open Shader Kernel

section

variable {α : Type} {p : Pooling} {shapes : List Shape} {out : Shape}

theorem OperatorKind.Makes.pooled {i : Nat} {recipe : Recipe α}
    (h : (OperatorKind.pooling p).Makes shapes out i recipe) :
    shapes.length = 1 ∧ ∃ pixels, recipe = .pooled p pixels := by
  cases h
  exact ⟨rfl, _, rfl⟩

/-- A pooling has a value for any image of the right size, be it empty. -/
theorem compute_pooling_total [Scalar α]
    (typed : (OperatorKind.pooling p : OperatorKind α).outputShape shapes = .ok out) {x : Array α}
    (size : [x].map Array.size = shapes.map Shape.size) :
    ∃ r, (OperatorKind.pooling p : OperatorKind α).compute shapes out [x] = some r ∧
      r.size = out.size := by
  cases OperatorKind.fitting_of_sizes typed size with
  | pooling hx window =>
    obtain ⟨r, run, size⟩ := pooling_total p _ (hx.trans (size4 _ _ _ _))
    exact ⟨r, run, size.trans (size4 _ _ _ _).symm⟩

end

theorem mem_of_read {α : Type} {x : Array α} {places : List Nat} {values : List α}
    (read : places.mapM (x[·]?) = some values) {v : α} (hv : v ∈ values) : v ∈ x := by
  obtain ⟨length, each⟩ := mapM_eq_some_iff.1 read
  obtain ⟨k, found⟩ := List.mem_iff_getElem?.1 hv
  have inside : k < places.length := length ▸ (List.getElem?_eq_some_iff.1 found).1
  exact Array.mem_of_getElem? ((each k _ (List.getElem?_eq_getElem inside)).trans found)

namespace KernelSpec

section

variable {α : Type} [Scalar α] {s : KernelSpec α} {params : Nat → Nat} {p : Pooling}

/-- What a pooling kernel makes of the numbers under a window: a maximum starts at the least finite
number. -/
def windowResult (p : Pooling) (values : List α) : α :=
  match p.mode with
  | .max => values.foldl Scalar.max Scalar.leastFinite
  | .average => values.foldl (· + ·) Scalar.zero /
    Scalar.ofNat (p.kernel.height * p.kernel.width)

/-- The code for the pixels under a window goes on with the greatest number so far and with the
sum so far. -/
theorem poolingSteps_run {x : Array α} {pixels : List Nat} {values : List α}
    (read : pixels.mapM (x[·]?) = some values) {m : Machine α}
    (held : m.Holds (s.operand 0).buffer (params 0) x) {best acc : α}
    (greatest : m.numbers "best" = some best) (sum : m.numbers "acc" = some acc) :
    ∃ m', m.run (pixels.flatMap fun e => poolingStep (s.element params 0 e)) = some m' ∧
      m'.buffers = m.buffers ∧ m'.numbers "best" = some (values.foldl Scalar.max best) ∧
      m'.numbers "acc" = some (values.foldl (· + ·) acc) := by
  induction pixels generalizing values m best acc with
  | nil =>
    cases read
    exact ⟨m, rfl, rfl, greatest, sum⟩
  | cons e pixels ih =>
    rw [List.mapM_cons] at read
    obtain ⟨v, element, read⟩ := Option.bind_eq_some_iff.1 read
    obtain ⟨vs, others, e'⟩ := Option.bind_eq_some_iff.1 read
    cases e'
    have pixel : (s.element params 0 e).value? m = some v := held e v element
    have larger : (Term.max (.named "best") (.named "v")).value? (m.bind v "v") =
        some (Scalar.max best v) := by
      simp [Term.value?, Machine.numbers_bind_of_ne, greatest]
    have added : (.named "acc" + .named "v" : Term α).value?
        ((m.bind v "v").bind (Scalar.max best v) "best") = some (acc + v) := by
      show (Term.add (.named "acc") (.named "v")).value? _ = _
      simp [Term.value?, Machine.numbers_bind_of_ne, sum]
    let after := ((m.bind v "v").bind (Scalar.max best v) "best").bind (acc + v) "acc"
    have greater : after.numbers "best" = some (Scalar.max best v) := by
      simp [after, Machine.numbers_bind_of_ne]
    obtain ⟨m', run, kept, result⟩ := ih others (m := after) held greater
      (Machine.numbers_bind ..)
    refine ⟨m', ?_, kept, result⟩
    rw [List.flatMap_cons, poolingStep, List.cons_append, List.cons_append, List.cons_append,
      List.nil_append, Machine.run_number pixel, Machine.run_assign larger,
      accumulate, Machine.run_assign added, run]

theorem pooled_run {x : Array α} {pixels : List Nat} {values : List α}
    (read : pixels.mapM (x[·]?) = some values) {m : Machine α}
    (held : m.Holds (s.operand 0).buffer (params 0) x) (i : Nat) :
    ∃ m', m.run ((Recipe.pooled p pixels).code s params i) = some m' ∧
      m'.buffers = (m.write (windowResult p values) (params s.inputs.length + i)).buffers := by
  let before := (m.bind Scalar.leastFinite "best").bind Scalar.zero "acc"
  have start : before.numbers "best" = some Scalar.leastFinite := by
    simp [before, Machine.numbers_bind_of_ne]
  obtain ⟨m', run, kept, greatest, sum⟩ := poolingSteps_run (s := s) read (m := before) held start
    (Machine.numbers_bind ..)
  have stored : (pooled p : Term α).value? m' = some (windowResult p values) := by
    unfold pooled windowResult
    cases p.mode with
    | max => exact greatest
    | average =>
      show (Term.div (.named "acc") (.constant _)).value? m' = _
      simp [Term.value?, sum]
  refine ⟨m'.write (windowResult p values) (params s.inputs.length + i), ?_, ?_⟩
  · rw [Recipe.code, List.append_assoc, List.cons_append, List.cons_append, List.nil_append,
      Machine.run_accumulator rfl, Machine.run_accumulator rfl, Machine.run_append run, place,
      Machine.run_store stored]
    rfl
  · funext b e
    simp [Machine.write, kept, before]

/-- An invocation writes a number at a place, and nothing else. -/
def Stores (s : KernelSpec α) (params : Nat → Nat) (σ : Scope) (m : Machine α) (n : Nat) (v : α) :
    Prop :=
  ∃ code m', unroll params σ s.code = some (code, .finished) ∧ m.run code = some m' ∧
    m'.buffers = (m.write v n).buffers

theorem Stores.unique {σ : Scope} {m : Machine α} {n : Nat} {v w : α}
    (h : s.Stores params σ m n v) (h' : s.Stores params σ m n w) : v = w := by
  obtain ⟨code, m₁, unrolled, ran, stored⟩ := h
  obtain ⟨code', m₂, unrolled', ran', stored'⟩ := h'
  cases unrolled.symm.trans unrolled'
  cases ran.symm.trans ran'
  have same := congrFun (congrFun (stored.symm.trans stored') .data) n
  rw [Machine.buffers_write, Machine.buffers_write] at same
  exact Option.some.inj same

/-- An invocation of a pooling stores what the kernel makes of its window. -/
theorem stores_pooled {shapes : List Shape} {out : Shape} {i : Nat} {pixels : List Nat}
    (makes : (OperatorKind.pooling p : OperatorKind α).Makes shapes out i (.pooled p pixels))
    (plans : s.Plans (.pooling p) shapes out) (inside : i < s.invocations) {x : Array α}
    {values : List α} (read : pixels.mapM (x[·]?) = some values) {σ : Scope}
    (launched : s.Launched σ i) {m : Machine α}
    (held : m.Holds (s.operand 0).buffer (params 0) x) :
    s.Stores params σ m (params 1 + i) (windowResult p values) := by
  obtain ⟨σ', entered, enter⟩ := unroll_preamble launched inside
  obtain ⟨m', run, kept⟩ := pooled_run (s := s) (p := p) read held i
  rw [plans.count, makes.pooled.1] at kept
  refine ⟨_, m', ?_, run, kept⟩
  rw [code, enter, body_unrolled makes plans entered]

/-- Each invocation of a checked pooling has a window. It stores what the kernel makes of the
numbers under the window, and the evaluator has what it makes of them itself. -/
theorem pooling_stores {g : Graph α} {op : Operator α} (kind : op.kind = .pooling p)
    (checked : g.checkOperator op = .ok ⟨⟩) {workgroupSize : Nat}
    (planned : ofOperator g op workgroupSize = .ok s) {x : Array α}
    (size : [x.size] = op.inputs.map fun u => (g.shape u).size) :
    ∃ r, g.evaluateOperator op [x] = .ok r ∧ r.size = s.invocations ∧
      ∀ i < s.invocations, ∃ pixels values,
        op.kind.Makes (op.inputs.map g.shape) s.output i (.pooled p pixels) ∧
        pixels.mapM (x[·]?) = some values ∧ r[i]? = some (poolWindow p values) ∧
        ∀ params σ m, s.Launched σ i → m.Holds (s.operand 0).buffer (params 0) x →
          s.Stores params σ m (params 1 + i) (windowResult p values) := by
  obtain ⟨v, outputs, typed⟩ := Graph.checkOperator_iff.1 checked
  obtain ⟨plans, -⟩ := ofOperator_plans outputs planned
  rw [← Graph.shapes_eq, ← Graph.shape_eq, kind] at typed
  rw [kind] at plans
  have count : [x].length = op.inputs.length := by simpa using congrArg List.length size
  obtain ⟨r, computed, result⟩ := compute_pooling_total typed
    (size.trans (List.map_map ..).symm)
  rw [← kind] at computed
  refine ⟨r, Graph.evaluateOperator_of_compute checked outputs count computed result,
    result.trans plans.invocations.symm, fun i hi => ?_⟩
  obtain ⟨recipe, makes⟩ := exists_makes typed nofun (plans.invocations ▸ hi)
  obtain ⟨-, pixels, rfl⟩ := makes.pooled
  obtain ⟨made, results, -, element⟩ := makes.gives (by simpa using count) (kind ▸ computed) result
  obtain ⟨values, read, e⟩ := Option.bind_eq_some_iff.1 results
  cases e
  exact ⟨pixels, values, by rwa [kind, plans.output], read, element i _ List.mem_cons_self,
    fun _ _ _ launched held => stores_pooled makes plans hi read launched held⟩

end

/-- A checked maximum pooling of numbers, by its kernel and by the evaluator. The kernel stores what
the evaluator has, except where that is negative infinity: there it stores the least finite
number. These are the windows with no other number under them, those over the margin alone among
them. An entry point prints the code that is run here, whatever its name. -/
theorem maxPooling_stores {g : Graph Binary32} {op : Operator Binary32} {p : Pooling}
    (kind : op.kind = .pooling p) (mode : p.mode = .max) (checked : g.checkOperator op = .ok ⟨⟩)
    {workgroupSize : Nat} {s : KernelSpec Binary32}
    (planned : ofOperator g op workgroupSize = .ok s) {x : Array Binary32}
    (size : [x.size] = op.inputs.map fun u => (g.shape u).size)
    (numbers : ∀ v ∈ x, v.isNaN = false) :
    (∀ name, s.source name = s.header name ++ Statement.bodyLines 1 s.code ++ "\x7d\n") ∧
    ∃ r, g.evaluateOperator op [x] = .ok r ∧ r.size = s.invocations ∧
      ∀ i < s.invocations, ∃ pixels values v,
        op.kind.Makes (op.inputs.map g.shape) s.output i (.pooled p pixels) ∧
        pixels.mapM (x[·]?) = some values ∧ r[i]? = some v ∧
        (v = ⟨0xff800000⟩ ↔ ∀ w ∈ values, w = ⟨0xff800000⟩) ∧
        ∀ params σ m, s.Launched σ i → m.Holds (s.operand 0).buffer (params 0) x →
          ∀ w, s.Stores params σ m (params 1 + i) w ↔
            w = if v = ⟨0xff800000⟩ then ⟨0xff7fffff⟩ else v := by
  obtain ⟨r, run, sizes, each⟩ := pooling_stores kind checked planned size
  refine ⟨s.source_eq, r, run, sizes, fun i hi => ?_⟩
  obtain ⟨pixels, values, makes, read, element, stores⟩ := each i hi
  have under : ∀ v ∈ values, v.isNaN = false := fun v hv => numbers v (mem_of_read read hv)
  have greatest : poolWindow p values = maximum values := by rw [poolWindow, mode]
  have stored : windowResult p values =
      if maximum values = ⟨0xff800000⟩ then ⟨0xff7fffff⟩ else maximum values := by
    rw [windowResult, mode]
    exact foldl_leastFinite under
  rw [greatest] at element
  rw [stored] at stores
  refine ⟨pixels, values, maximum values, makes, read, element, maximum_eq_emptyMax_iff under,
    fun params σ m launched held w => ⟨fun h => ?_, fun e => ?_⟩⟩
  · exact h.unique (stores params σ m launched held)
  · rw [e]
    exact stores params σ m launched held

end KernelSpec

/-- A maximum pooling of one pixel, with a margin above it and one below. -/
def Graph.loneRow : Graph Binary32 :=
  afterCalls .empty
    [.addVariable "x" [1, 1, 1, 1], .addVariable "y" [1, 1, 3, 1],
      .addOperator (.pooling ⟨.max, ⟨1, 1⟩, ⟨1, 1⟩, .symmetric 1 0, false⟩) [⟨0⟩] [⟨1⟩],
      .designateInputs [⟨0⟩], .designateOutputs [⟨1⟩]]

/-- The specification for its operator. -/
def KernelSpec.loneRow : KernelSpec Binary32 where
  kind := .pooling ⟨.max, ⟨1, 1⟩, ⟨1, 1⟩, .explicit ⟨1, 0, 1, 0⟩, false⟩
  inputs := [⟨[1, 1, 1, 1], .data⟩]
  output := [1, 1, 3, 1]
  invocations := 3
  workgroupSize := 64

/-- The row in the middle is the pixel, for both. -/
theorem KernelSpec.maxPooling_stores_loneRow : ∃ op p σ m,
    Graph.loneRow.operatorAt? ⟨0⟩ = some op ∧ op.kind = .pooling p ∧ p.mode = .max ∧
    Graph.loneRow.checkOperator op = .ok ⟨⟩ ∧ ofOperator Graph.loneRow op 64 = .ok loneRow ∧
    (∀ v ∈ #[(5 : Binary32)], v.isNaN = false) ∧
    Graph.loneRow.evaluateOperator op [#[5]] = .ok #[⟨0xff800000⟩, 5, ⟨0xff800000⟩] ∧
    loneRow.Launched σ 1 ∧ m.Holds .data 0 #[5] ∧ loneRow.Stores id σ m 2 5 := by
  let op : Operator Binary32 :=
    ⟨⟨0⟩, .pooling ⟨.max, ⟨1, 1⟩, ⟨1, 1⟩, .symmetric 1 0, false⟩, [⟨0⟩], [⟨1⟩]⟩
  have checked : Graph.loneRow.checkOperator op = .ok ⟨⟩ := by decide
  have planned : ofOperator Graph.loneRow op 64 = .ok loneRow := rfl
  have numbers : ∀ v ∈ #[(5 : Binary32)], v.isNaN = false := by decide
  have computed : Graph.loneRow.evaluateOperator op [#[5]] =
      .ok #[⟨0xff800000⟩, 5, ⟨0xff800000⟩] := by decide
  obtain ⟨-, r, run, -, each⟩ :=
    maxPooling_stores (x := #[5]) rfl rfl checked planned (by decide) numbers
  cases computed.symm.trans run
  obtain ⟨_, _, v, -, -, element, -, stores⟩ := each 1 (by decide)
  cases element
  let σ : Scope := fun x => if x = "gid.x" then some 1 else some 0
  let m : Machine Binary32 := ⟨fun _ => none, fun _ n => #[5][n]?⟩
  have launched : loneRow.Launched σ 1 := ⟨1, 0, 0, rfl, rfl, rfl, rfl⟩
  have held : m.Holds .data 0 #[5] := fun e v h => by rwa [Nat.zero_add]
  exact ⟨op, _, σ, m, rfl, rfl, rfl, checked, planned, numbers, computed, launched, held,
    (stores id σ m launched held 5).2 (by decide)⟩

/-- The row above it has no pixel: its maximum is negative infinity for the evaluator, and
the least finite number for the kernel. -/
theorem KernelSpec.loneRow_differs : ∃ op p σ m,
    Graph.loneRow.operatorAt? ⟨0⟩ = some op ∧ op.kind = .pooling p ∧ p.mode = .max ∧
    Graph.loneRow.checkOperator op = .ok ⟨⟩ ∧ ofOperator Graph.loneRow op 64 = .ok loneRow ∧
    (∀ v ∈ #[(5 : Binary32)], v.isNaN = false) ∧
    Graph.loneRow.evaluateOperator op [#[5]] = .ok #[⟨0xff800000⟩, 5, ⟨0xff800000⟩] ∧
    loneRow.Launched σ 0 ∧ m.Holds .data 0 #[5] ∧ loneRow.Stores id σ m 1 ⟨0xff7fffff⟩ ∧
    ¬loneRow.Stores id σ m 1 ⟨0xff800000⟩ := by
  let m : Machine Binary32 := ⟨fun _ => none, fun _ n => #[5][n]?⟩
  have stored : loneRow.Stores id (fun _ => some 0) m 1 ⟨0xff7fffff⟩ :=
    ⟨_, _, by rfl, by rfl, by rfl⟩
  refine ⟨⟨⟨0⟩, .pooling ⟨.max, ⟨1, 1⟩, ⟨1, 1⟩, .symmetric 1 0, false⟩, [⟨0⟩], [⟨1⟩]⟩, _, _, m,
    rfl, rfl, rfl, by decide, rfl, by decide, by decide,
    ⟨0, 0, 0, rfl, rfl, rfl, rfl⟩, fun e v h => by rwa [Nat.zero_add], stored, fun other => ?_⟩
  exact absurd (stored.unique other) (by decide)

end TensorGraph
