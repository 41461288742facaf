import TensorGraph.Proofs.Graph.Validation
import TensorGraph.Trace.Conversion

/-!
# TensorGraph.Proofs.Trace.Kind

What the functions of a trace stand for.

* `Parameters.Natural`, `Parameters.Real`, `Parameters.Boolean`, `Parameters.ShapeList`: the value
  of a parameter that may be left out.
* `TracedNode.Denotes`: the kind of operator that a function application stands for, given the
  shapes of its operands and of its result.
* `nodeKind_ok_iff`: conversion gives a node exactly the kind that it denotes, if it has one result.
-/

namespace TensorGraph

variable {β γ : Type}

namespace Parameters

/-- The parameter `key` means `x`: its value does, or it is absent or `null` and `x` is the
default. -/
def Means (p : Parameters) (key : String) (default : β) (means : Json.Value → β → Prop) (x : β) :
    Prop :=
  (p.members.get? key = none ∨ p.members.get? key = some .null) ∧ x = default ∨
    ∃ v, p.members.get? key = some v ∧ v ≠ .null ∧ means v x

def Natural (p : Parameters) (key : String) (default n : Nat) : Prop :=
  p.Means key default (fun v n => v = .nat n) n

/-- A number within the range of binary32. -/
def Real (p : Parameters) (key : String) (default x : Binary32) : Prop :=
  p.Means key default
    (fun v x => ∃ d, v.float? = some d ∧ x = Binary32.ofFloat64 d ∧ x.isFinite = true) x

def Boolean (p : Parameters) (key : String) (default b : Bool) : Prop :=
  p.Means key default (fun v b => v = .boolean b) b

/-- A list of natural numbers, or nothing. -/
def ShapeList (p : Parameters) (key : String) (shape : Option Shape) : Prop :=
  p.Means key none (fun v s => ∃ ns, v = .nats ns ∧ s = some ns) shape

/-- The parameter `key` is there, whatever its value is. -/
def Given (p : Parameters) (key : String) : Prop := p.members.get? key ≠ none

end Parameters

/-- The parameters of a function application. -/
def TracedNode.parameters (n : TracedNode) : Parameters := ⟨n.tag, n.params⟩

/-- The kinds of operators that function applications stand for. -/
inductive TracedNode.Denotes (n : TracedNode) (operands : List Shape) (result : Shape) :
    OperatorKind Binary32 → Prop where
  | convolution {x : Shape} {o i height width : Nat} {bias : List Shape} {sy sx ph pw : Nat} :
    n.tag ∈ ["Convolution2DFunction", "Convolution2D"] →
    operands = x :: [o, i, height, width] :: bias → bias.length ≤ 1 →
    n.parameters.Natural "sy" 1 sy → n.parameters.Natural "sx" 1 sx →
    n.parameters.Natural "ph" 0 ph → n.parameters.Natural "pw" 0 pw →
    n.Denotes operands result (.convolution
      ⟨⟨height, width⟩, ⟨sy, sx⟩, .symmetric ph pw, .oihw, none⟩)
  | linear : n.tag ∈ ["LinearFunction", "Linear"] →
    operands.length = 2 ∨ operands.length = 3 → n.Denotes operands result (.linear none)
  | activation {a : Activation Binary32} :
    (n.tag, a) ∈ [("ReLU", .relu), ("Relu", .relu), ("Sigmoid", .sigmoid), ("Tanh", .tanh)] →
    operands.length = 1 → n.Denotes operands result (.activation a)
  | leakyRelu {slope : Binary32} : n.tag ∈ ["LeakyReLU", "LeakyRelu"] → operands.length = 1 →
    n.parameters.Real "slope" 0.2 slope →
    n.Denotes operands result (.activation (.leakyRelu slope))
  | batchNormalization {eps : Binary32} :
    n.tag ∈ ["BatchNormalizationFunction", "FixedBatchNormalization", "BatchNormalization"] →
    operands.length = 5 → n.parameters.Real "eps" 2e-5 eps →
    n.Denotes operands result (.batchNormalization eps)
  | pooling {mode : PoolMode} {kh kw sy sx ph pw : Nat} {ceilMode : Bool} :
    (n.tag, mode) ∈ [("MaxPooling2D", .max), ("AveragePooling2D", .average)] →
    operands.length = 1 → n.parameters.Given "kh" →
    n.parameters.Natural "kh" 0 kh → n.parameters.Natural "kw" kh kw →
    n.parameters.Natural "sy" kh sy → n.parameters.Natural "sx" kw sx →
    n.parameters.Natural "ph" 0 ph → n.parameters.Natural "pw" 0 pw →
    n.parameters.Boolean "cover_all" (mode = .max) ceilMode →
    n.Denotes operands result (.pooling ⟨mode, ⟨kh, kw⟩, ⟨sy, sx⟩, .symmetric ph pw, ceilMode⟩)
  | responseNormalization {size : Nat} {k alpha beta : Binary32} :
    n.tag = "LocalResponseNormalization" → operands.length = 1 →
    n.parameters.Natural "n" 5 size → n.parameters.Real "k" 2 k →
    n.parameters.Real "alpha" 1e-4 alpha → n.parameters.Real "beta" 0.75 beta →
    n.Denotes operands result (.responseNormalization ⟨size, k, alpha, beta⟩)
  | reshape {shape : Option Shape} : n.tag = "Reshape" → operands.length = 1 →
    n.parameters.ShapeList "shape" shape → n.Denotes operands result (.reshape (shape.getD result))
  | elementwiseAdd : n.tag ∈ ["Add", "ElementwiseAdd"] → 2 ≤ operands.length →
    n.Denotes operands result (.elementwiseAdd none)
  | scale {factor : Binary32} : n.tag = "MulConstant" → operands.length = 1 →
    n.parameters.Given "value" → n.parameters.Real "value" 0 factor →
    n.Denotes operands result (.scalarAffine factor 0)
  | shift {offset : Binary32} : n.tag = "AddConstant" → operands.length = 1 →
    n.parameters.Given "value" → n.parameters.Real "value" 0 offset →
    n.Denotes operands result (.scalarAffine 1 offset)
  | softmax {axis : Nat} : n.tag = "Softmax" → operands.length = 1 →
    n.parameters.Natural "axis" 1 axis → n.Denotes operands result (.softmax axis)

/-! ## Parameters -/

namespace Json.Value

theorem nat?_eq_some_iff {v : Value} {n : Nat} : v.nat? = some n ↔ v = .nat n := by
  constructor
  · intro h
    unfold nat? at h
    split at h
    · rw [← Option.some.inj h]
      rfl
    · cases h
  · rintro rfl
    rfl

theorem boolean?_eq_some_iff {v : Value} {b : Bool} : v.boolean? = some b ↔ v = .boolean b := by
  cases v <;> simp [boolean?]

end Json.Value

namespace Parameters

variable {p : Parameters} {key : String}

theorem get_ok_iff {default x : β} {read? : Json.Value → Option β} {flaw : TraceFlaw}
    {means : Json.Value → β → Prop} (h : ∀ v x, read? v = some x ↔ means v x) :
    p.get key default read? flaw = .ok x ↔ p.Means key default means x := by
  unfold get Means
  split
  · next absent => simp [absent, eq_comm]
  · next null => simp [null, eq_comm]
  · next v filled found =>
    have given : v ≠ .null := fun null => filled null
    rw [found]
    cases read : read? v <;> simp [given, ← h, read]

theorem natural_ok_iff {default n : Nat} :
    p.natural key default = .ok n ↔ p.Natural key default n :=
  get_ok_iff fun _ _ => Json.Value.nat?_eq_some_iff

theorem finite?_eq_some_iff {v : Json.Value} {x : Binary32} : finite? v = some x ↔
    ∃ d, v.float? = some d ∧ x = Binary32.ofFloat64 d ∧ x.isFinite = true := by
  unfold finite?
  cases v.float? with
  | none => simp
  | some d =>
    constructor
    · intro h
      dsimp only [Option.bind_eq_bind, Option.bind_some] at h
      split at h
      · next finite =>
        cases h
        exact ⟨d, rfl, rfl, finite⟩
      · cases h
    · rintro ⟨_, e, rfl, finite⟩
      cases e
      exact if_pos finite

theorem real_ok_iff {default x : Binary32} :
    p.real key default = .ok x ↔ p.Real key default x :=
  get_ok_iff fun _ _ => finite?_eq_some_iff

theorem boolean_ok_iff {default b : Bool} :
    p.boolean key default = .ok b ↔ p.Boolean key default b :=
  get_ok_iff fun _ _ => Json.Value.boolean?_eq_some_iff

theorem mapM_nat?_eq_some_iff {items : List Json.Value} {ns : List Nat} :
    items.mapM Json.Value.nat? = some ns ↔ items = ns.map Json.Value.nat := by
  induction items generalizing ns with
  | nil => cases ns <;> simp
  | cons v items ih =>
    rw [List.mapM_cons]
    cases ns with
    | nil => simp [Option.bind_eq_some_iff]
    | cons n ns => simp [Option.bind_eq_some_iff, ih, Json.Value.nat?_eq_some_iff]

theorem naturals?_eq_some_iff {v : Json.Value} {ns : List Nat} :
    naturals? v = some ns ↔ v = .nats ns := by
  cases v <;> simp [naturals?, Json.Value.nats, mapM_nat?_eq_some_iff]

theorem shape?_ok_iff {shape : Option Shape} :
    p.shape? key = .ok shape ↔ p.ShapeList key shape :=
  get_ok_iff fun _ _ => Option.map_eq_some_iff.trans
    (exists_congr fun _ => and_congr naturals?_eq_some_iff eq_comm)

theorem require_ok_iff : p.require key = .ok ⟨⟩ ↔ p.Given key := by
  rw [require, Given, ← Option.isSome_iff_ne_none]
  cases (p.members.get? key).isSome <;> simp

theorem requiredNatural_ok_iff {n : Nat} :
    p.requiredNatural key = .ok n ↔ p.Given key ∧ p.Natural key 0 n := by
  rw [requiredNatural, Graph.except_check_bind_ok_iff, require_ok_iff, natural_ok_iff]

theorem requiredReal_ok_iff {x : Binary32} :
    p.requiredReal key = .ok x ↔ p.Given key ∧ p.Real key 0 x := by
  rw [requiredReal, Graph.except_check_bind_ok_iff, require_ok_iff, real_ok_iff]

end Parameters

/-! ## Kinds -/

namespace Conversion

open TensorGraph.Graph Parameters

variable {p : Parameters} {g : Graph Binary32} {inputs outputs : List VariableId}

theorem arity_bind_ok_iff {tag : String} {wanted : Arity} {k : Unit → Except GraphError γ} {y : γ} :
    (arity tag wanted inputs >>= k) = .ok y ↔
      wanted.admits inputs.length = true ∧ k ⟨⟩ = .ok y := by
  unfold arity
  by_cases h : wanted.admits inputs.length = true
  · rw [if_pos h, except_ok_bind]
    exact ⟨fun run => ⟨h, run⟩, And.right⟩
  · rw [if_neg h]
    exact ⟨(nomatch ·), fun ⟨admits, _⟩ => absurd admits h⟩

theorem param_bind_ok_iff {e : Except TraceFlaw β} {k : β → Except GraphError γ} {y : γ} :
    (param e >>= k) = .ok y ↔ ∃ x, e = .ok x ∧ k x = .ok y := by
  rw [except_bind_ok_iff]
  cases e with
  | error flaw => simp [param]
  | ok x => simp [param]

theorem pure_ok_iff {ε : Type} {x y : β} : (pure x : Except ε β) = .ok y ↔ x = y :=
  ⟨Except.ok.inj, fun e => e ▸ rfl⟩

theorem admits_iff {a : Arity} {n : Nat} :
    a.admits n = true ↔ a.least ≤ n ∧ ∀ most ∈ a.most, n ≤ most := by
  obtain ⟨least, _ | most⟩ := a
  · simp [Arity.admits]
  · simp [Arity.admits]

theorem admits_exactly {n m : Nat} : (Arity.exactly n).admits m = true ↔ m = n := by
  rw [admits_iff, Arity.exactly]
  simp
  omega

theorem admits_atLeast {n m : Nat} : (Arity.atLeast n).admits m = true ↔ n ≤ m := by
  rw [admits_iff, Arity.atLeast]
  simp

theorem admits_two_three {m : Nat} : (Arity.between 2 3).admits m = true ↔ m = 2 ∨ m = 3 := by
  rw [admits_iff, Arity.between]
  simp
  omega

theorem arity_exactly_bind_ok {tag : String} {m : Nat} {k : Unit → Except GraphError γ} {y : γ}
    (count : (inputs.map g.shape).length = m) (run : k ⟨⟩ = .ok y) :
    (arity tag (.exactly m) inputs >>= k) = .ok y := by
  rw [List.length_map] at count
  exact arity_bind_ok_iff.2 ⟨admits_exactly.2 count, run⟩

theorem convolutionKind_ok_iff {kind : OperatorKind Binary32} :
    convolutionKind g p inputs = .ok kind ↔ ∃ x o i height width bias sy sx ph pw,
      inputs.map g.shape = x :: [o, i, height, width] :: bias ∧ bias.length ≤ 1 ∧
      p.Natural "sy" 1 sy ∧ p.Natural "sx" 1 sx ∧ p.Natural "ph" 0 ph ∧ p.Natural "pw" 0 pw ∧
      kind = .convolution ⟨⟨height, width⟩, ⟨sy, sx⟩, .symmetric ph pw, .oihw, none⟩ := by
  unfold convolutionKind
  rw [arity_bind_ok_iff, admits_two_three]
  constructor
  · rintro ⟨count, h⟩
    obtain ⟨x, w, rest, rfl⟩ : ∃ x w rest, inputs = x :: w :: rest := by
      match inputs, count with
      | x :: w :: rest, _ => exact ⟨x, w, rest, rfl⟩
    dsimp only at h
    split at h
    · next o i height width form =>
      simp only [param_bind_ok_iff, natural_ok_iff, pure_ok_iff] at h
      obtain ⟨sy, hsy, sx, hsx, ph, hph, pw, hpw, rfl⟩ := h
      refine ⟨g.shape x, o, i, height, width, rest.map g.shape, sy, sx, ph, pw, ?_, ?_, hsy, hsx,
        hph, hpw, rfl⟩
      · rw [List.map_cons, List.map_cons, form]
      · rw [List.length_map]
        simp only [List.length_cons] at count
        omega
    · cases h
  · rintro ⟨x, o, i, height, width, bias, sy, sx, ph, pw, form, few, hsy, hsx, hph, hpw, rfl⟩
    obtain ⟨u, tail, rfl, rfl, tailForm⟩ := List.map_eq_cons_iff.1 form
    obtain ⟨w, rest, rfl, filter, rfl⟩ := List.map_eq_cons_iff.1 tailForm
    refine ⟨?_, ?_⟩
    · rw [List.length_map] at few
      simp only [List.length_cons]
      omega
    · simp only [filter, param_bind_ok_iff, natural_ok_iff, pure_ok_iff]
      exact ⟨sy, hsy, sx, hsx, ph, hph, pw, hpw, rfl⟩

theorem poolingKind_ok_iff {mode : PoolMode} {kind : OperatorKind Binary32} :
    poolingKind mode p = .ok kind ↔ ∃ kh kw sy sx ph pw ceilMode, p.Given "kh" ∧
      p.Natural "kh" 0 kh ∧ p.Natural "kw" kh kw ∧ p.Natural "sy" kh sy ∧ p.Natural "sx" kw sx ∧
      p.Natural "ph" 0 ph ∧ p.Natural "pw" 0 pw ∧ p.Boolean "cover_all" (mode = .max) ceilMode ∧
      kind = .pooling ⟨mode, ⟨kh, kw⟩, ⟨sy, sx⟩, .symmetric ph pw, ceilMode⟩ := by
  simp only [poolingKind, param_bind_ok_iff, pure_ok_iff, requiredNatural_ok_iff, natural_ok_iff,
    boolean_ok_iff]
  constructor
  · rintro ⟨kh, ⟨given, hkh⟩, kw, hkw, sy, hsy, sx, hsx, ph, hph, pw, hpw, ceilMode, hc, rfl⟩
    exact ⟨kh, kw, sy, sx, ph, pw, ceilMode, given, hkh, hkw, hsy, hsx, hph, hpw, hc, rfl⟩
  · rintro ⟨kh, kw, sy, sx, ph, pw, ceilMode, given, hkh, hkw, hsy, hsx, hph, hpw, hc, rfl⟩
    exact ⟨kh, ⟨given, hkh⟩, kw, hkw, sy, hsy, sx, hsx, ph, hph, pw, hpw, ceilMode, hc, rfl⟩

theorem responseNormalizationKind_ok_iff {kind : OperatorKind Binary32} :
    responseNormalizationKind p = .ok kind ↔ ∃ size k alpha beta, p.Natural "n" 5 size ∧
      p.Real "k" 2 k ∧ p.Real "alpha" 1e-4 alpha ∧ p.Real "beta" 0.75 beta ∧
      kind = .responseNormalization ⟨size, k, alpha, beta⟩ := by
  simp only [responseNormalizationKind, param_bind_ok_iff, pure_ok_iff, natural_ok_iff,
    real_ok_iff]
  constructor
  · rintro ⟨size, hsize, k, hk, alpha, ha, beta, hb, rfl⟩
    exact ⟨size, k, alpha, beta, hsize, hk, ha, hb, rfl⟩
  · rintro ⟨size, k, alpha, beta, hsize, hk, ha, hb, rfl⟩
    exact ⟨size, hsize, k, hk, alpha, ha, beta, hb, rfl⟩

theorem reshapeKind_ok_iff {v : VariableId} {kind : OperatorKind Binary32} :
    reshapeKind g p [v] = .ok kind ↔ ∃ shape, p.ShapeList "shape" shape ∧
      kind = .reshape (shape.getD (g.shape v)) := by
  rw [reshapeKind, param_bind_ok_iff]
  refine exists_congr fun shape => and_congr shape?_ok_iff ?_
  cases shape with
  | none => exact pure_ok_iff.trans eq_comm
  | some s => exact pure_ok_iff.trans eq_comm

@[simp] theorem parameters_tag (n : TracedNode) : n.parameters.tag = n.tag := rfl

section

variable {n : TracedNode} {v : VariableId} {kind : OperatorKind Binary32}

theorem denotes_of_kindOf (h : kindOf g n.parameters inputs [v] = .ok kind) :
    n.Denotes (inputs.map g.shape) (g.shape v) kind := by
  have length : (inputs.map g.shape).length = inputs.length := List.length_map _
  unfold kindOf at h
  dsimp only at h
  split at h
  any_goals
    simp only [arity_bind_ok_iff, param_bind_ok_iff, admits_exactly, admits_atLeast,
      admits_two_three, natural_ok_iff, real_ok_iff, requiredReal_ok_iff, pure_ok_iff,
      convolutionKind_ok_iff, poolingKind_ok_iff, responseNormalizationKind_ok_iff,
      reshapeKind_ok_iff, ← length] at h
  case h_1 tag | h_2 tag =>
    obtain ⟨x, o, i, height, width, bias, sy, sx, ph, pw, form, few, hsy, hsx, hph, hpw, rfl⟩ := h
    exact .convolution (by simp [← parameters_tag, tag]) form few hsy hsx hph hpw
  case h_3 tag | h_4 tag =>
    obtain ⟨count, rfl⟩ := h
    exact .linear (by simp [← parameters_tag, tag]) count
  case h_5 tag | h_6 tag | h_7 tag | h_8 tag =>
    obtain ⟨count, rfl⟩ := h
    exact .activation (by simp [← parameters_tag, tag]) count
  case h_9 tag | h_10 tag =>
    obtain ⟨count, slope, hslope, rfl⟩ := h
    exact .leakyRelu (by simp [← parameters_tag, tag]) count hslope
  case h_11 tag | h_12 tag | h_13 tag =>
    obtain ⟨count, eps, heps, rfl⟩ := h
    exact .batchNormalization (by simp [← parameters_tag, tag]) count heps
  case h_14 tag | h_15 tag =>
    obtain ⟨count, kh, kw, sy, sx, ph, pw, ceilMode, given, hkh, hkw, hsy, hsx, hph, hpw, hc,
      rfl⟩ := h
    exact .pooling (by simp [← parameters_tag, tag]) count given hkh hkw hsy hsx hph hpw hc
  case h_16 tag =>
    obtain ⟨count, size, k, alpha, beta, hsize, hk, ha, hb, rfl⟩ := h
    exact .responseNormalization tag count hsize hk ha hb
  case h_17 tag =>
    obtain ⟨count, shape, hshape, rfl⟩ := h
    exact .reshape tag count hshape
  case h_18 tag | h_19 tag =>
    obtain ⟨count, rfl⟩ := h
    exact .elementwiseAdd (by simp [← parameters_tag, tag]) count
  case h_20 tag =>
    obtain ⟨count, factor, ⟨given, hf⟩, rfl⟩ := h
    exact .scale tag count given hf
  case h_21 tag =>
    obtain ⟨count, offset, ⟨given, hf⟩, rfl⟩ := h
    exact .shift tag count given hf
  case h_22 tag =>
    obtain ⟨count, axis, haxis, rfl⟩ := h
    exact .softmax tag count haxis
  case h_23 => cases h

theorem kindOf_of_denotes (h : n.Denotes (inputs.map g.shape) (g.shape v) kind) :
    kindOf g n.parameters inputs [v] = .ok kind := by
  have length : (inputs.map g.shape).length = inputs.length := List.length_map _
  unfold kindOf
  cases h with
  | convolution tag form few hsy hsx hph hpw =>
    have run := convolutionKind_ok_iff.2
      ⟨_, _, _, _, _, _, _, _, _, _, form, few, hsy, hsx, hph, hpw, rfl⟩
    simp only [List.mem_cons, List.not_mem_nil, or_false] at tag
    rcases tag with tag | tag <;> simpa only [parameters_tag, tag] using run
  | linear tag count =>
    simp only [List.mem_cons, List.not_mem_nil, or_false] at tag
    rcases tag with tag | tag <;> simp only [parameters_tag, tag] <;>
      exact arity_bind_ok_iff.2 ⟨admits_two_three.2 (length ▸ count), rfl⟩
  | activation tag count =>
    simp only [List.mem_cons, List.not_mem_nil, or_false, Prod.mk.injEq] at tag
    rcases tag with ⟨tag, rfl⟩ | ⟨tag, rfl⟩ | ⟨tag, rfl⟩ | ⟨tag, rfl⟩ <;>
      simp only [parameters_tag, tag] <;>
      exact arity_exactly_bind_ok count rfl
  | leakyRelu tag count slope =>
    simp only [List.mem_cons, List.not_mem_nil, or_false] at tag
    rcases tag with tag | tag <;> simp only [parameters_tag, tag] <;>
      exact arity_exactly_bind_ok count (param_bind_ok_iff.2 ⟨_, real_ok_iff.2 slope, rfl⟩)
  | batchNormalization tag count eps =>
    simp only [List.mem_cons, List.not_mem_nil, or_false] at tag
    rcases tag with tag | tag | tag <;> simp only [parameters_tag, tag] <;>
      exact arity_exactly_bind_ok count (param_bind_ok_iff.2 ⟨_, real_ok_iff.2 eps, rfl⟩)
  | pooling tag count given hkh hkw hsy hsx hph hpw hc =>
    have run := poolingKind_ok_iff.2
      ⟨_, _, _, _, _, _, _, given, hkh, hkw, hsy, hsx, hph, hpw, hc, rfl⟩
    simp only [List.mem_cons, List.not_mem_nil, or_false, Prod.mk.injEq] at tag
    rcases tag with ⟨tag, rfl⟩ | ⟨tag, rfl⟩ <;> simp only [parameters_tag, tag] <;>
      exact arity_exactly_bind_ok count run
  | responseNormalization tag count hsize hk ha hb =>
    have run := responseNormalizationKind_ok_iff.2 ⟨_, _, _, _, hsize, hk, ha, hb, rfl⟩
    simp only [parameters_tag, tag]
    exact arity_exactly_bind_ok count run
  | reshape tag count shape =>
    simp only [parameters_tag, tag]
    exact arity_exactly_bind_ok count (reshapeKind_ok_iff.2 ⟨_, shape, rfl⟩)
  | elementwiseAdd tag count =>
    simp only [List.mem_cons, List.not_mem_nil, or_false] at tag
    rcases tag with tag | tag <;> simp only [parameters_tag, tag] <;>
      exact arity_bind_ok_iff.2 ⟨admits_atLeast.2 (length ▸ count), rfl⟩
  | scale tag count given factor =>
    simp only [parameters_tag, tag]
    exact arity_exactly_bind_ok count
      (param_bind_ok_iff.2 ⟨_, requiredReal_ok_iff.2 ⟨given, factor⟩, rfl⟩)
  | shift tag count given offset =>
    simp only [parameters_tag, tag]
    exact arity_exactly_bind_ok count
      (param_bind_ok_iff.2 ⟨_, requiredReal_ok_iff.2 ⟨given, offset⟩, rfl⟩)
  | softmax tag count axis =>
    simp only [parameters_tag, tag]
    exact arity_exactly_bind_ok count (param_bind_ok_iff.2 ⟨_, natural_ok_iff.2 axis, rfl⟩)

/-- What a function application with one result is converted to. -/
theorem kindOf_ok_iff : kindOf g n.parameters inputs [v] = .ok kind ↔
    n.Denotes (inputs.map g.shape) (g.shape v) kind :=
  ⟨denotes_of_kindOf, kindOf_of_denotes⟩

end

/-- Conversion gives a node the kind that it denotes, if it has one result, and else fails. -/
theorem nodeKind_ok_iff {n : TracedNode} {kind : OperatorKind Binary32} :
    nodeKind g n inputs outputs = .ok kind ↔ ∃ v, outputs = [v] ∧
      n.Denotes (inputs.map g.shape) (g.shape v) kind := by
  unfold nodeKind
  rw [except_bind_ok_iff]
  constructor
  · rintro ⟨kind', found, h⟩
    by_cases one : outputs.length = 1
    · obtain ⟨v, rfl⟩ := List.length_eq_one_iff.1 one
      cases h
      exact ⟨v, rfl, kindOf_ok_iff.1 found⟩
    · rw [if_pos one] at h
      cases h
  · rintro ⟨v, rfl, denotes⟩
    exact ⟨kind, kindOf_ok_iff.2 denotes, rfl⟩

end Conversion

end TensorGraph
