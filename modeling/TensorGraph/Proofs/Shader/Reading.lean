import TensorGraph.Proofs.Shader.Entry
import TensorGraph.Proofs.Shader.Lines
import TensorGraph.Shader.Name

/-!
# TensorGraph.Proofs.Shader.Reading

What the text of a kernel tells.

* `readKind`: the kind of operator that a kernel was made for, read from its text.
* `readKind_source`: it is the kind of the specification, whatever numbers stand in the text.
* `renamed_source`: the text under one name determines that under another.
* `kind_eq_of_signature`, `source_eq_of_signature`: so a signature determines both.
-/

namespace TensorGraph

open Text Shader

namespace KernelSpec

variable {α : Type} [Scalar α]

/-! ## The text behind the preamble -/

theorem seek_parameters (m n : Nat) (rest : List Char) :
    seek "    let o = " ((Statement.bodyLines 1 ((List.range' m n).map fun k =>
      (.parameter (startName k) k : Statement α))).toList ++ rest) =
      seek "    let o = " rest := by
  induction n generalizing m with
  | zero => rfl
  | succ n ih =>
    rw [List.range'_succ, List.map_cons, Statement.bodyLines, String.toList_append,
      List.append_assoc, Statement.lines, Statement.seek_indented, ih]
    · simp +decide [startName]
    · simp [begins, Statement.toList_indented, startName, List.replicate_succ,
        List.isPrefixOf_cons_cons]

/-- The line that names the start of the output is the last one of the preamble. -/
theorem past_preamble (s : KernelSpec α) (rest : List Char) :
    past '\n' (seek "    let o = " ((Statement.bodyLines 1 s.preamble).toList ++ rest)) =
      rest := by
  have skips {line : String} (rest : List Char) (flat : Flat line)
      (differs : begins "let o = " (line.toList ++ '\n' :: rest) = false) :
      seek "    let o = " ((Statement.indented 1 line).toList ++ rest) =
        seek "    let o = " rest := by
    refine Statement.seek_indented flat ?_
    rw [Statement.toList_indented]
    simpa [begins, List.replicate_succ, List.isPrefixOf_cons_cons] using differs
  have inner (rest : List Char) : seek "    let o = "
      ((Statement.indented 2 "return;").toList ++ rest) = seek "    let o = " rest := by
    refine Statement.seek_indented (by decide) ?_
    simp [begins, Statement.toList_indented, List.replicate_succ, List.isPrefixOf_cons_cons]
  rw [preamble, Statement.bodyLines_append, Statement.bodyLines_append]
  simp only [Statement.bodyLines, Statement.lines, Statement.jumpLines, String.toList_append,
    String.toList_empty, List.append_assoc, List.nil_append]
  rw [skips _ (by simp +decide) (by simp [begins, List.isPrefixOf_cons_cons]),
    skips _ (by simp +decide [invocation]) (by simp [begins, List.isPrefixOf_cons_cons]), inner,
    skips _ (by decide) rfl, List.range_eq_range', seek_parameters, seek_here]
  · exact Statement.past_indented (by simp +decide)
  · simp [begins, Statement.toList_indented, List.replicate_succ]

/-- The text of a kernel from its body on. -/
def behindPreamble (text : List Char) : List Char := past '\n' (seek "    let o = " text)

/-- The arguments of an entry point, without the parenthesis in front of them. -/
def arguments : String :=
  "@builtin(global_invocation_id) gid: vec3<u32>, " ++
    "@builtin(num_workgroups) nwg: vec3<u32>) \x7b"

/-- The text of a kernel behind its name and the parenthesis that ends it. -/
def afterName (s : KernelSpec α) : List Char :=
  arguments.toList ++ '\n' :: ((Statement.bodyLines 1 s.code).toList ++ "\x7d\n".toList)

omit [Scalar α] in
theorem toList_lines {a b c c' d e e' f f' name code z : String} (first : c' = c ++ "\n")
    (opens : f' = "(" ++ f) (second : e' = e ++ "\n") :
    (a ++ b ++ c' ++ d ++ name ++ f' ++ e' ++ code ++ z).toList =
      (a ++ b ++ c).toList ++ '\n' :: (d.toList ++ (name.toList ++
        '(' :: ((f ++ e).toList ++ '\n' :: (code.toList ++ z.toList)))) := by
  subst first opens second
  simp

theorem toList_source (s : KernelSpec α) (name : String) : (s.source name).toList =
    ("@compute @workgroup_size(" ++ s.workgroupSize.repr ++ ")").toList ++
      '\n' :: ("fn ".toList ++ (name.toList ++ '(' :: s.afterName)) := by
  unfold source afterName arguments
  exact toList_lines (by decide) (by decide) (by decide)

theorem behindPreamble_source (s : KernelSpec α) {name : String} (flat : Flat name) :
    behindPreamble (s.source name).toList =
      (Statement.bodyLines 1 s.body).toList ++ "\x7d\n".toList := by
  have second : "fn ".toList ++ (name.toList ++ '(' :: s.afterName) =
      ("fn " ++ name ++ "(" ++ arguments).toList ++
        '\n' :: ((Statement.bodyLines 1 s.code).toList ++ "\x7d\n".toList) := by
    simp [afterName]
  rw [behindPreamble, toList_source, seek_line, second, seek_line, code,
    Statement.bodyLines_append, String.toList_append, List.append_assoc, past_preamble]
  · show Flat _
    rw [flat_append, flat_append, flat_append]
    exact ⟨⟨⟨by decide, flat⟩, by decide⟩, by decide⟩
  · simp [begins, List.isPrefixOf_cons_cons]
  · show Flat _
    rw [flat_append, flat_append]
    exact ⟨⟨by decide, flat_repr _⟩, by decide⟩
  · simp [begins, List.isPrefixOf_cons_cons]

/-- What the first store of the first level stores. -/
def stored (body : List Char) : List Char := (seek "    data[" body).drop 18

theorem stored_emit {front : List (Statement α)} (h : ∀ s ∈ front, s.Flat ∧ s.Declares)
    (value : Term α) (rest : List Char) :
    stored ((Statement.bodyLines 1 (front ++ [emit value])).toList ++ rest) =
      value.text.toList ++ ';' :: '\n' :: rest := by
  rw [stored, emit, Statement.seek_store h, Statement.toList_indented]
  simp [outputAt, invocation, Term.text, Index.text, Buffer.name, List.replicate_succ]

/-- The name of the kind of operator that a kernel computes, from the text of its body and the
value that the body stores first on its own level. -/
def kindFrom (body value : List Char) : String :=
  if begins "    let x" body then
    if begins "m" value then "relu"
    else if begins "1" value then "sigmoid"
    else if begins "t" value then "tanh"
    else "leaky_relu"
  else if begins "    data[" body then
    if begins ";" (past ']' value) then "reshape" else "scalar_affine"
  else if begins "    var" body then "elementwise_add"
  else if begins "    let c" body then
    if begins " -" (past ']' value) then "batch_normalization" else "axiswise_affine"
  else if begins "    let n" body then "linear"
  else if begins "    let r" body then "softmax"
  else if begins "    let o" body then
    if begins "    let oc" (past '\n' (past '\n' body)) then "convolution_2d"
    else if begins "b" value then "max_pooling_2d"
    else "average_pooling_2d"
  else "local_response_normalization"

/-- The name of the kind of operator that a kernel was made for, from its text. -/
def readKind (text : List Char) : String :=
  kindFrom (behindPreamble text) (stored (behindPreamble text))

@[simp] theorem flat_text_read (s : KernelSpec α) (k : Nat) {i : Index} :
    Flat (s.read k i).text ↔ Flat i.text := by
  rw [read, Term.flat_read, Index.flat_add]
  simp +decide [startName]

/-! ## One kind after the other -/

section

variable {s : KernelSpec α}

theorem opens_index (name : String) (i : Index) (more : List (Statement α)) (rest : List Char) :
    (Statement.bodyLines 1 (.index name i :: more)).toList ++ rest =
      ("    let " ++ name ++ " = ").toList ++
        (i.text.toList ++ ';' :: '\n' :: ((Statement.bodyLines 1 more).toList ++ rest)) := by
  simp [Statement.bodyLines, Statement.lines, Statement.toList_indented, List.replicate_succ]

theorem opens_number (name : String) (x : Term α) (more : List (Statement α)) (rest : List Char) :
    (Statement.bodyLines 1 (.number name x :: more)).toList ++ rest =
      ("    let " ++ name ++ " = ").toList ++
        (x.text.toList ++ ';' :: '\n' :: ((Statement.bodyLines 1 more).toList ++ rest)) := by
  simp [Statement.bodyLines, Statement.lines, Statement.toList_indented, List.replicate_succ]

theorem opens_accumulator (name : String) (x : Term α) (more : List (Statement α))
    (rest : List Char) : (Statement.bodyLines 1 (.accumulator name x :: more)).toList ++ rest =
      ("    var " ++ name ++ ": f32 = ").toList ++
        (x.text.toList ++ ';' :: '\n' :: ((Statement.bodyLines 1 more).toList ++ rest)) := by
  simp [Statement.bodyLines, Statement.lines, Statement.toList_indented, List.replicate_succ]

theorem opens_store (i : Index) (x : Term α) (more : List (Statement α)) (rest : List Char) :
    (Statement.bodyLines 1 (.store i x :: more)).toList ++ rest =
      "    data[".toList ++ (i.text.toList ++ "] = ".toList ++
        (x.text.toList ++ ';' :: '\n' :: ((Statement.bodyLines 1 more).toList ++ rest))) := by
  simp [Statement.bodyLines, Statement.lines, Statement.toList_indented, List.replicate_succ,
    Term.text, Buffer.name]

/-- What comes behind the text of the first operand, if nothing before it ends an index. -/
theorem past_operand (s : KernelSpec α) {front : List Char} (new : ']' ∉ front)
    (rest : List Char) :
    past ']' (front ++ ((s.read 0 invocation).text.toList ++ rest)) = rest := by
  have parts : (s.read 0 invocation).text.toList =
      ((s.operand 0).buffer.name ++ "[" ++ "p0 + i").toList ++ [']'] := by
    simp [read, Term.text, Index.text, startName, invocation]
  rw [parts, List.append_assoc, ← List.append_assoc, List.singleton_append]
  refine past_append ?_
  cases (s.operand 0).buffer <;> simp [new, Buffer.name]

/-- The first operand of a kernel in a product comes first, and then the sign of the product. -/
theorem text_scaled (s : KernelSpec α) (a b : Term α) : ∃ tail,
    (s.read 0 invocation * a + b).text = (s.read 0 invocation).text ++ (" * " ++ tail) := by
  rw [Term.text_add, Term.text_mul]
  simp only [String.append_assoc]
  exact ⟨_, rfl⟩

/-- The difference of the first operand and another one, divided, comes first in a product. -/
theorem text_centred (s : KernelSpec α) (a b c d : Term α) : ∃ tail,
    ((s.read 0 invocation - a) / b * c + d).text =
      "(" ++ ((s.read 0 invocation).text ++ (" - " ++ tail)) := by
  have closed (text : String) : enclosed (s.read 0 invocation - a).isSum text =
      "(" ++ text ++ ")" := rfl
  have bare (text : String) : enclosed ((s.read 0 invocation - a) / b).isSum text = text := rfl
  rw [Term.text_add, Term.text_mul, bare, Term.text_div, closed, Term.text_sub]
  simp only [String.append_assoc]
  exact ⟨_, rfl⟩

/-- A sum that an activation is applied to comes before all other operands. -/
theorem text_activated (a : Option (Activation α)) (u v : Term α) : ∃ front tail,
    ']' ∉ front.toList ∧ (activated a (u + v)).text = front ++ ((u + v).text ++ tail) := by
  cases a with
  | none =>
    refine ⟨"(", ")", by simp, ?_⟩
    show "(" ++ (u + v).text ++ ")" = _
    simp only [String.append_assoc]
  | some a =>
    cases a with
    | relu =>
      refine ⟨"max(" ++ "(", ")" ++ (", " ++ ("0.0" ++ ")")), by simp, ?_⟩
      show "max(" ++ ("(" ++ (u + v).text ++ ")") ++ ", " ++ "0.0" ++ ")" = _
      simp only [String.append_assoc]
    | sigmoid =>
      refine ⟨"1.0" ++ (" / " ++ ("(" ++ ("1.0" ++ (" + " ++ ("exp(" ++ ("-" ++ "(")))))),
        ")" ++ (")" ++ ")"), by simp, ?_⟩
      show "1.0" ++ " / " ++ ("(" ++ ("1.0" ++ " + " ++ ("exp(" ++
        ("-" ++ ("(" ++ (u + v).text ++ ")")) ++ ")")) ++ ")") = _
      simp only [String.append_assoc]
    | tanh =>
      refine ⟨"tanh(" ++ "(", ")" ++ ")", by simp, ?_⟩
      show "tanh(" ++ ("(" ++ (u + v).text ++ ")") ++ ")" = _
      simp only [String.append_assoc]
    | leakyRelu slope =>
      refine ⟨"select(" ++ "(", ")" ++ (" * " ++ (Scalar.literal slope ++ (", " ++ ("(" ++
        ((u + v).text ++ (")" ++ (", " ++ ("(" ++ ((u + v).text ++ (")" ++ " > 0.0)")))))))))),
        by simp, ?_⟩
      show "select(" ++ ("(" ++ (u + v).text ++ ")" ++ " * " ++ Scalar.literal slope) ++ ", " ++
        ("(" ++ (u + v).text ++ ")") ++ ", " ++ ("(" ++ (u + v).text ++ ")") ++ " > 0.0)" = _
      simp only [String.append_assoc]

theorem kindFrom_activation {a : Activation α} (kind : s.kind = .activation a)
    (rest : List Char) : kindFrom ((Statement.bodyLines 1 s.body).toList ++ rest)
      (stored ((Statement.bodyLines 1 s.body).toList ++ rest)) = a.name := by
  have parts : s.body = [.number "x" (s.read 0 invocation)] ++
      [emit (activated (some a) (.named "x"))] := by
    simp only [body, kind]
    rfl
  rw [parts, stored_emit (by simp +decide [Statement.Flat, Statement.Declares, invocation]),
    List.singleton_append, opens_number]
  cases a <;> simp [kindFrom, begins, activated, Activation.name, Term.text, Term.text_div,
    enclosed, Term.isSum, List.isPrefixOf_cons_cons]

theorem kindFrom_reshape {shape : Shape} (kind : s.kind = .reshape shape) (rest : List Char) :
    kindFrom ((Statement.bodyLines 1 s.body).toList ++ rest)
      (stored ((Statement.bodyLines 1 s.body).toList ++ rest)) = "reshape" := by
  have parts : s.body = [] ++ [emit (s.read 0 invocation)] := by
    simp only [body, kind]
    rfl
  have next : past ']' ((s.read 0 invocation).text.toList ++ ';' :: '\n' :: rest) = _ :=
    past_operand s List.not_mem_nil _
  rw [parts, stored_emit (by simp), List.nil_append, emit, opens_store, kindFrom, next]
  simp [begins]

theorem kindFrom_scalarAffine {scale bias : α} (kind : s.kind = .scalarAffine scale bias)
    (rest : List Char) : kindFrom ((Statement.bodyLines 1 s.body).toList ++ rest)
      (stored ((Statement.bodyLines 1 s.body).toList ++ rest)) = "scalar_affine" := by
  have parts : s.body = [] ++ [emit (s.read 0 invocation * .constant scale + .constant bias)] := by
    simp only [body, kind]
    rfl
  obtain ⟨tail, value⟩ := text_scaled s (.constant scale) (.constant bias)
  have next : past ']' ((s.read 0 invocation).text.toList ++
      (" * ".toList ++ (tail.toList ++ ';' :: '\n' :: rest))) = _ :=
    past_operand s List.not_mem_nil _
  rw [parts, stored_emit (by simp), List.nil_append, emit, opens_store, kindFrom, value]
  simp only [String.toList_append, List.append_assoc, next]
  simp [begins]

theorem kindFrom_axiswiseAffine {axis : Nat} {a : Option (Activation α)}
    (kind : s.kind = .axiswiseAffine axis a) (rest : List Char) :
    kindFrom ((Statement.bodyLines 1 s.body).toList ++ rest)
      (stored ((Statement.bodyLines 1 s.body).toList ++ rest)) = "axiswise_affine" := by
  have parts : s.body = [.index "c" (s.coordinate axis)] ++
      [emit (activated a
        (s.read 0 invocation * s.read 1 (.named "c") + s.read 2 (.named "c")))] := by
    simp only [body, kind]
    rfl
  obtain ⟨tail, scaled⟩ := text_scaled s (s.read 1 (.named "c")) (s.read 2 (.named "c"))
  obtain ⟨front, behind, new, whole⟩ := text_activated a
    (s.read 0 invocation * s.read 1 (.named "c")) (s.read 2 (.named "c"))
  have next := past_operand s new
    (" * ".toList ++ (tail.toList ++ (behind.toList ++ ';' :: '\n' :: rest)))
  have flat : ∀ x ∈ [.index "c" (s.coordinate axis)], (x : Statement α).Flat ∧ x.Declares := by
    simp +decide [Statement.Flat, Statement.Declares, coordinate, invocation]
  rw [parts, stored_emit flat, List.singleton_append, opens_index, kindFrom, whole, scaled]
  simp only [String.toList_append, List.append_assoc, next]
  simp [begins]

theorem kindFrom_batchNormalization {eps : α} (kind : s.kind = .batchNormalization eps)
    (rest : List Char) : kindFrom ((Statement.bodyLines 1 s.body).toList ++ rest)
      (stored ((Statement.bodyLines 1 s.body).toList ++ rest)) = "batch_normalization" := by
  have parts : s.body = [.index "c" (s.coordinate 1)] ++
      [emit ((s.read 0 invocation - s.read 3 (.named "c")) /
        .sqrt (s.read 4 (.named "c") + .constant eps) * s.read 1 (.named "c") +
          s.read 2 (.named "c"))] := by
    simp only [body, kind]
    rfl
  obtain ⟨tail, centred⟩ := text_centred s (s.read 3 (.named "c"))
    (.sqrt (s.read 4 (.named "c") + .constant eps)) (s.read 1 (.named "c")) (s.read 2 (.named "c"))
  have next := past_operand s (show ']' ∉ "(".toList by simp)
    (" - ".toList ++ (tail.toList ++ ';' :: '\n' :: rest))
  have flat : ∀ x ∈ [.index "c" (s.coordinate 1)], (x : Statement α).Flat ∧ x.Declares := by
    simp +decide [Statement.Flat, Statement.Declares, coordinate, invocation]
  rw [parts, stored_emit flat, List.singleton_append, opens_index, kindFrom, centred]
  simp only [String.toList_append, List.append_assoc, next]
  simp [begins]

theorem kindFrom_elementwiseAdd {a : Option (Activation α)} (kind : s.kind = .elementwiseAdd a)
    (rest value : List Char) :
    kindFrom ((Statement.bodyLines 1 s.body).toList ++ rest) value = "elementwise_add" := by
  simp only [body, kind, List.cons_append]
  rw [opens_accumulator]
  simp [kindFrom, begins]

theorem kindFrom_responseNormalization {p} (kind : s.kind = .responseNormalization p)
    (value : List Char) :
    kindFrom ((Statement.bodyLines 1 s.body).toList ++ "\x7d\n".toList) value =
      "local_response_normalization" := by
  simp only [body, kind]
  simp [kindFrom, begins, Statement.bodyLines, List.isPrefixOf_cons_cons]

theorem kindFrom_linear {a : Option (Activation α)} (kind : s.kind = .linear a)
    (rest value : List Char) :
    kindFrom ((Statement.bodyLines 1 s.body).toList ++ rest) value = "linear" := by
  simp only [body, kind, linearBody]
  rw [opens_index]
  simp [kindFrom, begins]

theorem kindFrom_softmax {axis : Nat} (kind : s.kind = .softmax axis) (rest value : List Char) :
    kindFrom ((Statement.bodyLines 1 s.body).toList ++ rest) value = "softmax" := by
  simp only [body, kind, softmaxBody]
  rw [opens_index]
  simp [kindFrom, begins]

/-- The third statement behind the position in the output. -/
theorem past_outputPosition (output : ImageShape) (more : List (Statement α)) (rest : List Char) :
    past '\n' (past '\n' ((Statement.bodyLines 1 (outputPosition output ++ more)).toList ++ rest)) =
      (Statement.bodyLines 1 more).toList ++ rest := by
  simp only [outputPosition, List.cons_append, List.nil_append, Statement.bodyLines,
    Statement.lines, String.toList_append, List.append_assoc]
  rw [Statement.past_indented (by simp +decide [invocation]),
    Statement.past_indented (by simp +decide [invocation])]

/-- Behind the position in the output comes what tells a convolution from a pooling, and the stored
value tells the modes of a pooling. -/
theorem kindFrom_window (name : String) (filters : Bool)
    (third : ∀ tail, begins "    let oc" (("    let " ++ name ++ " = ").toList ++ tail) = filters)
    (output : ImageShape) (i : Index) (more : List (Statement α)) (rest value : List Char) :
    kindFrom ((Statement.bodyLines 1 (outputPosition output ++ .index name i :: more)).toList ++
      rest) value =
      if filters then "convolution_2d"
      else if begins "b" value then "max_pooling_2d" else "average_pooling_2d" := by
  rw [kindFrom, past_outputPosition, opens_index, third]
  simp only [outputPosition, List.cons_append, opens_index]
  simp [begins]

theorem kindFrom_convolution {p : Convolution α} (kind : s.kind = .convolution p)
    (rest value : List Char) :
    kindFrom ((Statement.bodyLines 1 s.body).toList ++ rest) value = "convolution_2d" := by
  simp only [body, kind, convolutionBody]
  rw [kindFrom_window "oc" true fun _ => by simp [begins], if_pos rfl]

/-- What a pooling does before it stores its result. -/
def poolingFront (s : KernelSpec α) (p : Pooling) : List (Statement α) :=
  let image := imageOf (s.operand 0).shape
  let output := imageOf s.output
  let margins := p.padding.resolve ⟨0, 0⟩ p.kernel p.stride
  outputPosition output ++
    [.index "plane" (invocation / .literal (output.width * output.height)),
      .accumulator "best" .least,
      .accumulator "acc" .zero,
      .block
        [windowLoop p.kernel p.stride margins image
          [.number "v" (s.read 0 (pixelIndex (.named "plane") margins image)),
            .assign "best" (.max (.named "best") (.named "v")),
            accumulate (.named "v")]]]

theorem poolingFront_flat (s : KernelSpec α) (p : Pooling) :
    ∀ x ∈ s.poolingFront p, x.Flat ∧ x.Declares := by
  simp +decide [poolingFront, outputPosition, windowLoop, axisLoop, pixelIndex, accumulate,
    invocation, Statement.Flat, Statement.AllFlat, Statement.Declares]

/-- Both modes of a pooling declare the same things in the same way. -/
theorem kindFrom_pooling {p : Pooling} (kind : s.kind = .pooling p) (rest : List Char) :
    kindFrom ((Statement.bodyLines 1 s.body).toList ++ rest)
      (stored ((Statement.bodyLines 1 s.body).toList ++ rest)) = s.kind.name := by
  have parts : s.body = s.poolingFront p ++ [emit (pooled p)] := by
    simp only [body, kind]
    rfl
  have third : ∀ tail, begins "    let oc" ("    let plane = ".toList ++ tail) = false :=
    fun _ => by simp [begins, List.isPrefixOf_cons_cons]
  rw [parts, stored_emit (poolingFront_flat s p), poolingFront, List.append_assoc,
    List.cons_append, kindFrom_window "plane" false third, kind, OperatorKind.name, pooled]
  cases p.mode with
  | max => simp [begins, Term.text]
  | average =>
    simp [begins, Term.text_div, Term.text, enclosed, Term.isSum, List.isPrefixOf_cons_cons]

/-- The text of a kernel tells the kind of its operator. -/
theorem readKind_source (s : KernelSpec α) {name : String} (flat : Flat name) :
    readKind (s.source name).toList = s.kind.name := by
  rw [readKind, behindPreamble_source s flat]
  cases kind : s.kind with
  | convolution p => exact kindFrom_convolution kind _ _
  | linear a => exact kindFrom_linear kind _ _
  | activation a => exact kindFrom_activation kind _
  | batchNormalization eps => exact kindFrom_batchNormalization kind _
  | pooling p => exact kind ▸ kindFrom_pooling kind _
  | responseNormalization p => exact kindFrom_responseNormalization kind _
  | reshape shape => exact kindFrom_reshape kind _
  | elementwiseAdd a => exact kindFrom_elementwiseAdd kind _ _
  | scalarAffine scale bias => exact kindFrom_scalarAffine kind _
  | axiswiseAffine axis a => exact kindFrom_axiswiseAffine kind _
  | softmax axis => exact kindFrom_softmax kind _ _

end

/-! ## Names -/

/-- The text of a kernel under another name. The name of a kernel stands behind the `fn` in its
second line and ends with the first parenthesis. -/
def renamed (name text : String) : String :=
  .ofList (text.toList.takeWhile (· ≠ '\n') ++ '\n' :: ("fn ".toList ++ (name.toList ++
    ((past '\n' text.toList).drop 3).dropWhile (· ≠ '('))))

theorem renamed_source (s : KernelSpec α) {old : String} (plain : '(' ∉ old.toList)
    (name : String) : renamed name (s.source old) = s.source name := by
  have header : '\n' ∉ ("@compute @workgroup_size(" ++ s.workgroupSize.repr ++ ")").toList := by
    show Flat _
    simp +decide
  have keyword : "fn ".toList.length = 3 := by decide
  apply String.toList_inj.1
  rw [renamed, String.toList_ofList, toList_source, toList_source, past_append header,
    takeWhile_append header, List.drop_left' keyword, dropWhile_append plain]

/-- Kernels with one signature have the same text under every name. -/
theorem source_eq_of_signature {s s' : KernelSpec α} (same : s.signature = s'.signature)
    (name : String) : s.source name = s'.source name := by
  have plain : '(' ∉ "".toList := List.not_mem_nil
  rw [← s.renamed_source plain name, ← s'.renamed_source plain name]
  exact congrArg (renamed name) same

/-- Kernels with one signature are made for operators of one kind. -/
theorem kind_eq_of_signature {s s' : KernelSpec α} (same : s.signature = s'.signature) :
    s.kind.name = s'.kind.name := by
  have flat : Flat "" := by decide
  calc
    s.kind.name = readKind s.signature.toList := (s.readKind_source flat).symm
    _ = readKind s'.signature.toList := by rw [same]
    _ = s'.kind.name := s'.readKind_source flat

end KernelSpec

end TensorGraph
