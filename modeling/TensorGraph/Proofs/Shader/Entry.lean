import TensorGraph.Proofs.Evaluation.Recipe
import TensorGraph.Proofs.Shader.Window

/-!
# TensorGraph.Proofs.Shader.Entry

What the body of a kernel starts from.

* `KernelSpec.source_eq`: the statements of a kernel are all that its entry point prints.
* `KernelSpec.Entered`: the scope behind the preamble. `unroll_preamble` says that it is reached.
* `Entered.read`, `Entered.emit`: what it makes of the elements that are read and written.
* `KernelSpec.Plans`: what a specification takes over from the shapes and the kind of its operator.
-/

namespace TensorGraph

open Shader Kernel

namespace KernelSpec

variable {α : Type}

/-- Element `e` of operand `k`, if the operands start where `params` says. -/
def element (s : KernelSpec α) (params : Nat → Nat) (k e : Nat) : Term α :=
  .read (s.operand k).buffer (.literal (params k + e))

/-- Where element `e` of the result lies. -/
def place (s : KernelSpec α) (params : Nat → Nat) (e : Nat) : Index :=
  .literal (params s.inputs.length + e)

/-- What a pooling does with a pixel. -/
def poolingStep (pixel : Term α) : List (Statement α) :=
  [.number "v" pixel, .assign "best" (.max (.named "best") (.named "v")),
    accumulate (.named "v")]

/-- The lines of an entry point in front of its code. -/
def header (s : KernelSpec α) (name : String) : String :=
  "@compute @workgroup_size(" ++ s.workgroupSize.repr ++ ")\n" ++
    "fn " ++ name ++ "(@builtin(global_invocation_id) gid: vec3<u32>, " ++
    "@builtin(num_workgroups) nwg: vec3<u32>) \x7b\n"

/-- An entry point prints the statements of its kernel one after the other, and nothing else between
its braces. -/
theorem source_eq [Scalar α] (s : KernelSpec α) (name : String) :
    s.source name = s.header name ++ Statement.bodyLines 1 s.code ++ "\x7d\n" := rfl

/-- What a pooling stores. -/
def pooled [Scalar α] (p : Pooling) : Term α :=
  match p.mode with
  | .max => .named "best"
  | .average => .named "acc" / .constant (Scalar.ofNat (p.kernel.height * p.kernel.width))

/-! ## The scope of a body -/

variable {s : KernelSpec α} {params : Nat → Nat} {i : Nat} {σ : Scope}

/-- The scope of the invocation that is number `i`. -/
structure Launched (s : KernelSpec α) (σ : Scope) (i : Nat) : Prop where
  grid : ∃ x y width, σ "gid.x" = some x ∧ σ "gid.y" = some y ∧ σ "nwg.x" = some width ∧
    x + y * width * s.workgroupSize = i

/-- The names that the preamble binds, and no body does. -/
def reserved (name : String) : Bool :=
  match name.toList with
  | ['i'] => true
  | ['o'] => true
  | 'p' :: c :: _ => c.isDigit
  | _ => false

theorem toList_startName (k : Nat) : (startName k).toList = 'p' :: Nat.toDigits 10 k := by
  simp [startName]

theorem startName_inj {k k' : Nat} (h : startName k = startName k') : k' = k := by
  have digits := congrArg String.toList h
  rw [toList_startName, toList_startName] at digits
  have value := congrArg (Nat.ofDigitChars 10 · 0) (List.cons.inj digits).2
  simpa [Nat.ofDigitChars_ten_toDigits] using value.symm

theorem reserved_startName (k : Nat) : reserved (startName k) = true := by
  unfold reserved
  rw [toList_startName]
  obtain ⟨c, rest, digits⟩ := List.exists_cons_of_ne_nil (Nat.toDigits_ne_nil (n := k) (b := 10))
  rw [digits]
  exact Nat.isDigit_of_mem_toDigits (by decide) (by decide) (digits ▸ List.mem_cons_self)

/-- The scope behind the preamble. -/
structure Entered (s : KernelSpec α) (params : Nat → Nat) (i : Nat) (σ : Scope) : Prop where
  number : σ "i" = some i
  start : ∀ k < s.inputs.length, σ (startName k) = some (params k)
  output : σ "o" = some (params s.inputs.length)

theorem Entered.bind (h : s.Entered params i σ) (name : String) (free : reserved name = false)
    (n : Nat) : s.Entered params i (σ.bind name n) := by
  have apart {x : String} (hx : reserved x = true) : x ≠ name := by
    rintro rfl
    rw [free] at hx
    cases hx
  exact ⟨(Scope.bind_of_ne σ (apart (by decide)) n).trans h.number,
    fun k hk => (Scope.bind_of_ne σ (apart (reserved_startName k)) n).trans (h.start k hk),
    (Scope.bind_of_ne σ (apart (by decide)) n).trans h.output⟩

/-- The parameters are bound one after the other. -/
theorem unroll_parameters (params : Nat → Nat) (ks : List Nat) (once : ks.Nodup) (σ : Scope) :
    ∃ σ' : Scope,
    (∀ rest : List (Statement α), unroll params σ
      ((ks.map fun k => .parameter (startName k) k) ++ rest) = unroll params σ' rest) ∧
    (∀ k ∈ ks, σ' (startName k) = some (params k)) ∧
    ∀ x, (∀ k ∈ ks, x ≠ startName k) → σ' x = σ x := by
  induction ks generalizing σ with
  | nil => exact ⟨σ, fun _ => rfl, nofun, fun _ _ => rfl⟩
  | cons k ks ih =>
    obtain ⟨new, once⟩ := List.nodup_cons.1 once
    obtain ⟨σ', run, bound, kept⟩ := ih once (σ.bind (startName k) (params k))
    refine ⟨σ', fun rest => ?_, fun k' hk' => ?_, fun x hx => ?_⟩
    · rw [List.map_cons, List.cons_append, unroll_parameter, run]
    · rcases List.mem_cons.1 hk' with rfl | later
      · rw [kept (startName k') fun k hk same => new (startName_inj same ▸ hk), Scope.bind_self]
      · exact bound k' later
    · obtain ⟨first, others⟩ := List.forall_mem_cons.1 hx
      rw [kept x others, Scope.bind_of_ne _ first]

section

variable (launched : s.Launched σ i)

include launched

/-- The first statement of a kernel computes the number of the invocation. -/
theorem Launched.number :
    (.named "gid.x" + .named "gid.y" * .named "nwg.x" * .literal s.workgroupSize :
      Index).value? σ = some i := by
  obtain ⟨x, y, width, hx, hy, hwidth, rfl⟩ := launched.grid
  exact Index.value?_add hx (Index.value?_mul (Index.value?_mul hy hwidth) Index.value?_literal)

omit launched in
/-- The second statement compares it to the number of invocations. -/
theorem holds?_surplus : (Test.atLeast invocation (.literal s.invocations)).holds? (σ.bind "i" i) =
    some (decide (s.invocations ≤ i)) := by
  have left : (invocation).written? (σ.bind "i" i) 0 = some i :=
    Index.written?_zero (Scope.bind_self σ "i" i)
  have right : (Index.literal s.invocations).written? (σ.bind "i" i) 0 = some s.invocations :=
    Index.written?_zero Index.value?_literal
  simp only [Test.holds?, left, right, Option.bind_eq_bind, Option.bind_some]
  rfl

theorem unroll_preamble (inside : i < s.invocations) : ∃ σ' : Scope,
    s.Entered params i σ' ∧ ∀ rest : List (Statement α),
      unroll params σ (s.preamble ++ rest) = unroll params σ' rest := by
  have goes : (Test.atLeast invocation (.literal s.invocations)).holds? (σ.bind "i" i) =
      some false := holds?_surplus.trans (congrArg some (decide_eq_false (Nat.not_le.2 inside)))
  obtain ⟨σ', run, bound, kept⟩ :=
    unroll_parameters (α := α) params (List.range s.inputs.length) List.nodup_range (σ.bind "i" i)
  have apart (k : Nat) (name : String) (h : name.toList.head? ≠ some 'p') :
      name ≠ startName k := by
    rintro rfl
    rw [toList_startName] at h
    exact h rfl
  refine ⟨σ'.bind "o" (params s.inputs.length), ⟨?_, fun k hk => ?_, Scope.bind_self ..⟩,
    fun rest => ?_⟩
  · rw [Scope.bind_of_ne _ (by decide), kept _ fun k _ => apart k _ (by decide), Scope.bind_self]
  · rw [Scope.bind_of_ne _ (apart k "o" (by decide)).symm, bound k (List.mem_range.2 hk)]
  · rw [preamble, List.append_assoc, List.append_assoc, List.cons_append, List.cons_append,
      List.nil_append, unroll_index launched.number, unroll_returnIf goes, run, List.cons_append,
      List.nil_append, unroll_parameter]

/-- An invocation past the last one returns at once, and stores nothing. -/
theorem unroll_surplus [Scalar α] (surplus : s.invocations ≤ i) :
    unroll params σ s.code = some ([], .returned) := by
  rw [code, preamble, List.append_assoc, List.append_assoc, List.cons_append, List.cons_append,
    List.nil_append, unroll_index launched.number,
    unroll_returned (holds?_surplus.trans (congrArg some (decide_eq_true surplus)))]

end

/-! ## Terms and statements of a body -/

section

variable {idx : Index} {k e : Nat} {x y : Term α}

theorem Entered.invocation (h : s.Entered params i σ) : invocation.value? σ = some i := h.number

theorem Entered.read (h : s.Entered params i σ) (hk : k < s.inputs.length)
    (he : idx.value? σ = some e) : (s.read k idx).located? σ = some (s.element params k e) := by
  have sum : (.named (startName k) + idx : Index).written? σ 0 = some (params k + e) :=
    Index.written?_zero (Index.value?_add (h.start k hk) he)
  rw [KernelSpec.read, Term.located?, sum]
  rfl

theorem Entered.outputAt (h : s.Entered params i σ) (he : idx.value? σ = some e) :
    (outputAt idx).value? σ = some (params s.inputs.length + e) :=
  Index.value?_add h.output he

theorem located?_activated_named (a : Option (Activation α)) (name : String) :
    (activated a (.named name)).located? σ = some (activated a (.named name) : Term α) := by
  rcases a with _ | _ | _ | _ | slope <;> rfl

theorem located?_activated_sum (a : Option (Activation α)) {u v u' v' : Term α}
    (hu : u.located? σ = some u') (hv : v.located? σ = some v') :
    (activated a (u + v)).located? σ = some (activated a (u' + v')) := by
  have sum : (Term.add u v).located? σ = some (.add u' v') := by
    rw [Term.located?, hu, hv]
    rfl
  change (activated a (.add u v)).located? σ = some (activated a (.add u' v'))
  rcases a with _ | _ | _ | _ | slope <;> simp [activated, sum]

theorem located?_pooled [Scalar α] (p : Pooling) :
    (pooled p : Term α).located? σ = some (pooled p) := by
  unfold pooled
  cases p.mode <;> rfl

theorem Entered.emit (h : s.Entered params i σ) (value : x.located? σ = some y) :
    unroll params σ [emit x] = some ([.store (s.place params i) y], .finished) := by
  rw [KernelSpec.emit, unroll_store (h.outputAt h.invocation) value, unroll]
  rfl

theorem unroll_accumulate {rest : List (Statement α)} (h : x.located? σ = some y) :
    unroll params σ (accumulate x :: rest) =
      (unroll params σ rest).map (Unrolled.prepend [accumulate y]) :=
  unroll_assign (by rw [Term.located?_add, h]; rfl)

end

/-! ## What a specification says -/

/-- The extent of the image that is the first operand. -/
def imageExtent (shapes : List Shape) : Extent :=
  match shapes.head?.bind ImageShape.ofShape? with
  | some image => image.extent
  | none => ⟨0, 0⟩

/-- A kind with its margins spelled out. -/
def explicit (kind : OperatorKind α) (shapes : List Shape) : OperatorKind α :=
  match kind with
  | .convolution p => .convolution (p.withExplicitMargins (imageExtent shapes))
  | .pooling p => .pooling (p.withExplicitMargins (imageExtent shapes))
  | other => other

/-- A specification for an operator of a kind, with operands of the given shapes. -/
structure Plans (s : KernelSpec α) (kind : OperatorKind α) (shapes : List Shape) (out : Shape) :
    Prop where
  kind_eq : s.kind = explicit kind shapes
  inputs : s.inputs.map Operand.shape = shapes
  output : s.output = out
  invocations : s.invocations = kind.recipeCount out

theorem ofOperator_plans {g : Graph α} {op : Operator α} {workgroupSize : Nat} {v : VariableId}
    (outputs : op.outputs = [v]) (planned : ofOperator g op workgroupSize = .ok s) :
    s.Plans op.kind (op.inputs.map g.shape) (g.shape v) ∧
      ∀ p, op.kind ≠ .responseNormalization p := by
  obtain ⟨id, kind, inputs, outs⟩ := op
  dsimp only at outputs
  subst outputs
  have shapes : (inputs.map (operandOf g)).map Operand.shape = inputs.map g.shape := by
    rw [List.map_map]
    rfl
  cases kind with
  | convolution p =>
    cases planned
    refine ⟨⟨?_, shapes, rfl, rfl⟩, nofun⟩
    cases inputs <;> rfl
  | pooling p =>
    cases planned
    refine ⟨⟨?_, shapes, rfl, rfl⟩, nofun⟩
    cases inputs <;> rfl
  | responseNormalization => cases planned
  | softmax | linear | activation | batchNormalization | reshape | elementwiseAdd | scalarAffine
      | axiswiseAffine =>
    cases planned
    exact ⟨⟨rfl, shapes, rfl, rfl⟩, nofun⟩

theorem Plans.operand {kind : OperatorKind α} {shapes : List Shape} {out : Shape}
    (h : s.Plans kind shapes out) (k : Nat) : (s.operand k).shape = shapes.getD k [] := by
  rw [← h.inputs, KernelSpec.operand]
  exact (List.getD_map _ _ _).symm

theorem Plans.count {kind : OperatorKind α} {shapes : List Shape} {out : Shape}
    (h : s.Plans kind shapes out) : s.inputs.length = shapes.length := by
  rw [← h.inputs, List.length_map]

end KernelSpec

end TensorGraph
