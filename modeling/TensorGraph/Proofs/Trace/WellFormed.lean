import Mathlib.Data.List.Nodup
import TensorGraph.Proofs.Graph.Cycle
import TensorGraph.Proofs.Graph.Sound
import TensorGraph.Proofs.Lists
import TensorGraph.Proofs.Trace.Kind

/-!
# TensorGraph.Proofs.Trace.WellFormed

Which traces make sense, and what their graphs look like.

* `Trace.WellFormed`: what a trace has to satisfy, told by its names alone.
* `Trace.Shown`: an outline has the tensors and the function applications of a trace.
* `Shown.sound_iff`: such an outline is sound exactly when the trace uses its names as it should.
-/

namespace TensorGraph

open Relation (TransGen)

/-- A tensor of a known type, without an empty dimension, and with a payload of its size if it has
one. -/
structure TracedVariable.Proper (d : TracedVariable) : Prop where
  type : d.elementType = none ∨ d.elementType = some "float32" ∨ d.elementType = some "f32"
  positive : 0 ∉ d.shape
  size : ∀ p, d.payload = some p → p.size = Shape.size d.shape

def TracedVariable.tensor (d : TracedVariable) : Tensor Binary32 := ⟨d.name, d.shape, d.payload⟩

namespace Trace

variable (t : Trace)

def Declares (x : String) : Prop := ∃ d ∈ t.tensors, d.name = x

def HasShape (x : String) (s : Shape) : Prop := ∃ d ∈ t.tensors, d.name = x ∧ d.shape = s

/-- `x` is the name of a constant. -/
def Carries (x : String) : Prop := ∃ d ∈ t.tensors, d.name = x ∧ d.payload ≠ none

def Reads (x : String) : Prop := ∃ n ∈ t.nodes, x ∈ n.inputs

def Computes (x : String) : Prop := ∃ n ∈ t.nodes, x ∈ n.outputs

/-- The node at `j` reads a result of the node at `i`. -/
def Feeds (i j : Nat) : Prop :=
  ∃ a b x, t.nodes[i]? = some a ∧ t.nodes[j]? = some b ∧ x ∈ a.outputs ∧ x ∈ b.inputs

/-- The function of a node is known and applied as it may be, which makes it an operator of the
given kind. Its operands and its one result are declared, with the shapes that this kind asks
for. -/
def Applies (n : TracedNode) (kind : OperatorKind Binary32) : Prop :=
  ∃ operands y result, List.Forall₂ t.HasShape n.inputs operands ∧ n.outputs = [y] ∧
    t.HasShape y result ∧ n.Denotes operands result kind ∧ kind.outputShape operands = .ok result

structure WellFormed : Prop where
  distinct : (t.tensors.map (·.name)).Nodup
  tensors : ∀ d ∈ t.tensors, d.Proper
  nodes : ∀ n ∈ t.nodes, ∃ kind, t.Applies n kind
  results_distinct : (t.nodes.flatMap (·.outputs)).Nodup
  results_computed : ∀ n ∈ t.nodes, ∀ y ∈ n.outputs, ¬t.Carries y ∧ y ∉ n.inputs
  inputs : ∀ x ∈ t.inputs, t.Declares x ∧ ¬t.Carries x ∧ ¬t.Computes x
  outputs : ∀ x ∈ t.outputs, t.Declares x
  acyclic : ∀ i, ¬TransGen t.Feeds i i
  sourced : ∀ x, t.Reads x ∨ x ∈ t.outputs → x ∈ t.inputs ∨ t.Carries x ∨ t.Computes x
  used : ∀ x, t.Computes x → t.Reads x ∨ x ∈ t.outputs

/-- `x` is the name of the variable `v`. -/
def Names (x : String) (v : VariableId) : Prop := ∃ d, t.tensors[v.index]? = some d ∧ d.name = x

/-- An operator that a node has become. -/
structure Lowers (n : TracedNode) (op : Operator Binary32) : Prop where
  inputs : List.Forall₂ t.Names n.inputs op.inputs
  outputs : List.Forall₂ t.Names n.outputs op.outputs
  applies : t.Applies n op.kind

/-- The outline of a graph with all tensors of a trace, and with the given nodes as operators. Both
have their places as ids. -/
structure Shown (ns : List TracedNode) (O : Outline Binary32) : Prop where
  tensors : ∀ v, O.tensors v = t.tensors[v.index]?.map TracedVariable.tensor
  operators : ∀ o, Option.Rel t.Lowers ns[o.index]? (O.operators o)

variable {t}

/-! ## Names -/

section

variable (distinct : (t.tensors.map (·.name)).Nodup)

include distinct

theorem Names.unique {x : String} {v w : VariableId} (hv : t.Names x v) (hw : t.Names x w) :
    v = w := by
  obtain ⟨d, hd, rfl⟩ := hv
  obtain ⟨e, he, same⟩ := hw
  have at_v : (t.tensors.map (·.name))[v.index]? = some d.name := by simp [hd]
  have at_w : (t.tensors.map (·.name))[w.index]? = some d.name := by simp [he, same]
  have inside : v.index < (t.tensors.map (·.name)).length := (List.getElem?_eq_some_iff.1 at_v).1
  have index := (List.getElem?_inj inside distinct).1 (at_v.trans at_w.symm)
  cases v
  cases w
  exact congrArg VariableId.mk index

theorem Names.mem_iff {xs : List String} {vs : List VariableId} (h : List.Forall₂ t.Names xs vs)
    {x : String} {v : VariableId} (hx : t.Names x v) : v ∈ vs ↔ x ∈ xs := by
  induction h with
  | nil => simp
  | @cons y w ys ws first _ ih =>
    have same : v = w ↔ x = y := by
      constructor
      · rintro rfl
        obtain ⟨d, hd, rfl⟩ := hx
        obtain ⟨e, he, rfl⟩ := first
        cases hd.symm.trans he
        rfl
      · rintro rfl
        exact hx.unique distinct first
    rw [List.mem_cons, List.mem_cons, ih, same]

end

theorem Names.declares {x : String} {v : VariableId} (h : t.Names x v) : t.Declares x := by
  obtain ⟨d, hd, rfl⟩ := h
  exact ⟨d, List.mem_of_getElem? hd, rfl⟩

theorem Declares.names {x : String} (h : t.Declares x) : ∃ v, t.Names x v := by
  obtain ⟨d, hd, rfl⟩ := h
  obtain ⟨i, hi⟩ := List.getElem?_of_mem hd
  exact ⟨⟨i⟩, d, hi, rfl⟩

theorem HasShape.declares {x : String} {s : Shape} (h : t.HasShape x s) : t.Declares x := by
  obtain ⟨d, hd, name, _⟩ := h
  exact ⟨d, hd, name⟩

theorem exists_names {xs : List String} (h : ∀ x ∈ xs, t.Declares x) :
    ∃ vs, List.Forall₂ t.Names xs vs :=
  exists_partners.2 fun x hx => (h x hx).names

theorem Applies.declares {n : TracedNode} {kind : OperatorKind Binary32} (h : t.Applies n kind)
    {x : String} (hx : x ∈ n.inputs ∨ x ∈ n.outputs) : t.Declares x := by
  obtain ⟨operands, y, result, shapes, one, shape, _⟩ := h
  rcases hx with hx | hx
  · obtain ⟨s, _, hs⟩ := exists_right shapes hx
    exact hs.declares
  · rw [one] at hx
    cases List.mem_singleton.1 hx
    exact shape.declares

theorem exists_place {β : Type} {xs : List β} {P : β → Prop} :
    (∃ o : OperatorId, ∃ x, xs[o.index]? = some x ∧ P x) ↔ ∃ x ∈ xs, P x := by
  constructor
  · rintro ⟨o, x, hx, holds⟩
    exact ⟨x, List.mem_of_getElem? hx, holds⟩
  · rintro ⟨x, hx, holds⟩
    obtain ⟨i, hi⟩ := List.getElem?_of_mem hx
    exact ⟨⟨i⟩, x, hi, holds⟩

/-! ## The outline of a trace -/

section

variable {ns : List TracedNode} {O : Outline Binary32}

theorem Shown.operator {o : OperatorId} {op : Operator Binary32} (h : t.Shown ns O)
    (ho : O.operators o = some op) : ∃ n, ns[o.index]? = some n ∧ t.Lowers n op := by
  have related := h.operators o
  rw [ho] at related
  generalize ns[o.index]? = found at related
  cases related with
  | some lowers => exact ⟨_, rfl, lowers⟩

theorem Shown.node {i : Nat} {n : TracedNode} (h : t.Shown ns O) (hn : ns[i]? = some n) :
    ∃ op, O.operators ⟨i⟩ = some op ∧ t.Lowers n op := by
  have related := h.operators ⟨i⟩
  rw [hn] at related
  generalize O.operators ⟨i⟩ = found at related
  cases related with
  | some lowers => exact ⟨_, rfl, lowers⟩

theorem Shown.positive (h : t.Shown ns O) (proper : ∀ d ∈ t.tensors, d.Proper)
    (v : VariableId) : 0 ∉ O.shape v := by
  rw [Outline.shape, h.tensors]
  cases hd : t.tensors[v.index]? with
  | none => exact List.not_mem_nil
  | some d => exact (proper d (List.mem_of_getElem? hd)).positive

variable (distinct : (t.tensors.map (·.name)).Nodup) (h : t.Shown ns O) {x : String}
  {v : VariableId}

include distinct h

theorem Shown.tensor_iff (hx : t.Names x v) {P : Tensor Binary32 → Prop} :
    (∃ d ∈ t.tensors, d.name = x ∧ P d.tensor) ↔ ∃ u, O.tensors v = some u ∧ P u := by
  obtain ⟨d, hd, rfl⟩ := hx
  have found : O.tensors v = some d.tensor := by rw [h.tensors, hd, Option.map_some]
  constructor
  · rintro ⟨e, he, name, holds⟩
    have same : e = d := List.inj_on_of_nodup_map distinct he (List.mem_of_getElem? hd) name
    exact ⟨_, found, same ▸ holds⟩
  · rintro ⟨u, hu, holds⟩
    cases found.symm.trans hu
    exact ⟨d, List.mem_of_getElem? hd, rfl, holds⟩

theorem Shown.hasShape_iff (hx : t.Names x v) {s : Shape} : t.HasShape x s ↔ O.shape v = s := by
  refine (h.tensor_iff distinct hx (P := fun u => u.shape = s)).trans ?_
  obtain ⟨d, hd, rfl⟩ := hx
  have found : O.tensors v = some d.tensor := by rw [h.tensors, hd, Option.map_some]
  rw [Outline.shape_of found, found]
  simp

theorem Shown.carries_iff (hx : t.Names x v) : t.Carries x ↔ O.payload? v ≠ none := by
  refine (h.tensor_iff distinct hx (P := fun u => u.payload ≠ none)).trans ?_
  obtain ⟨d, hd, rfl⟩ := hx
  have found : O.tensors v = some d.tensor := by rw [h.tensors, hd, Option.map_some]
  rw [Outline.payload?_of found, found]
  simp

theorem Shown.shapes_iff {xs : List String} {vs : List VariableId}
    (names : List.Forall₂ t.Names xs vs) {shapes : List Shape} :
    List.Forall₂ t.HasShape xs shapes ↔ shapes = vs.map O.shape := by
  induction names generalizing shapes with
  | nil => simp
  | @cons x v xs vs first _ ih =>
    rw [List.forall₂_cons_left_iff, List.map_cons]
    constructor
    · rintro ⟨s, rest, hs, hrest, rfl⟩
      rw [(h.hasShape_iff distinct first).1 hs, ih.1 hrest]
    · rintro rfl
      exact ⟨_, _, (h.hasShape_iff distinct first).2 rfl, ih.2 rfl, rfl⟩

theorem Shown.applies_iff {n : TracedNode} {vs ws : List VariableId}
    (ins : List.Forall₂ t.Names n.inputs vs) (outs : List.Forall₂ t.Names n.outputs ws)
    {kind : OperatorKind Binary32} : t.Applies n kind ↔ ∃ w, ws = [w] ∧
      n.Denotes (vs.map O.shape) (O.shape w) kind ∧
      kind.outputShape (vs.map O.shape) = .ok (O.shape w) := by
  constructor
  · rintro ⟨operands, y, result, shapes, one, shape, denotes, typed⟩
    cases (h.shapes_iff distinct ins).1 shapes
    rw [one] at outs
    obtain ⟨w, rest, named, none, rfl⟩ := List.forall₂_cons_left_iff.1 outs
    cases none
    cases (h.hasShape_iff distinct named).1 shape
    exact ⟨w, rfl, denotes, typed⟩
  · rintro ⟨w, rfl, denotes, typed⟩
    obtain ⟨y, rest, named, none, one⟩ := List.forall₂_cons_right_iff.1 outs
    cases none
    exact ⟨_, y, _, (h.shapes_iff distinct ins).2 rfl, one, (h.hasShape_iff distinct named).2 rfl,
      denotes, typed⟩

/-- Operators mention variables where nodes mention their names, among the operands or among the
results. -/
theorem Shown.mentions_iff {names : TracedNode → List String}
    {ids : Operator Binary32 → List VariableId}
    (side : ∀ n op, t.Lowers n op → List.Forall₂ t.Names (names n) (ids op)) (hx : t.Names x v)
    {o : OperatorId} : (∃ op, O.operators o = some op ∧ v ∈ ids op) ↔
      ∃ n, ns[o.index]? = some n ∧ x ∈ names n := by
  constructor
  · rintro ⟨op, ho, hv⟩
    obtain ⟨n, hn, lowers⟩ := h.operator ho
    exact ⟨n, hn, (Names.mem_iff distinct (side n op lowers) hx).1 hv⟩
  · rintro ⟨n, hn, mem⟩
    obtain ⟨op, ho, lowers⟩ := h.node hn
    exact ⟨op, ho, (Names.mem_iff distinct (side n op lowers) hx).2 mem⟩

theorem Shown.writes_iff (hx : t.Names x v) {o : OperatorId} :
    O.Writes o v ↔ ∃ n, ns[o.index]? = some n ∧ x ∈ n.outputs :=
  h.mentions_iff distinct (fun _ _ lowers => lowers.outputs) hx

theorem Shown.reads_iff (hx : t.Names x v) {o : OperatorId} :
    O.Reads o v ↔ ∃ n, ns[o.index]? = some n ∧ x ∈ n.inputs :=
  h.mentions_iff distinct (fun _ _ lowers => lowers.inputs) hx

theorem Shown.written_iff (hx : t.Names x v) :
    (∃ o, O.Writes o v) ↔ ∃ n ∈ ns, x ∈ n.outputs :=
  (exists_congr fun _ => h.writes_iff distinct hx).trans exists_place

theorem Shown.read_iff (hx : t.Names x v) : (∃ o, O.Reads o v) ↔ ∃ n ∈ ns, x ∈ n.inputs :=
  (exists_congr fun _ => h.reads_iff distinct hx).trans exists_place

end

/-! ## Sound outlines -/

section

variable {O : Outline Binary32} (h : t.Shown t.nodes O)

include h

section

variable {names : TracedNode → List String} {ids : Operator Binary32 → List VariableId}
  (side : ∀ n op, t.Lowers n op → List.Forall₂ t.Names (names n) (ids op))

include side

theorem Shown.name_of_mention {o : OperatorId} {v : VariableId}
    (mention : ∃ op, O.operators o = some op ∧ v ∈ ids op) : ∃ x, t.Names x v := by
  obtain ⟨op, ho, hv⟩ := mention
  obtain ⟨n, _, lowers⟩ := h.operator ho
  obtain ⟨x, _, hx⟩ := exists_left (side n op lowers) hv
  exact ⟨x, hx⟩

theorem Shown.named_of_mention {x : String} (mention : ∃ n ∈ t.nodes, x ∈ names n) :
    ∃ v, t.Names x v := by
  obtain ⟨n, hn, mem⟩ := mention
  obtain ⟨i, hi⟩ := List.getElem?_of_mem hn
  obtain ⟨op, _, lowers⟩ := h.node hi
  obtain ⟨v, _, hv⟩ := exists_right (side n op lowers) mem
  exact ⟨v, hv⟩

end

theorem Shown.name_of_reads {o : OperatorId} {v : VariableId} (read : O.Reads o v) :
    ∃ x, t.Names x v :=
  h.name_of_mention (fun _ _ lowers => lowers.inputs) read

theorem Shown.name_of_writes {o : OperatorId} {v : VariableId} (write : O.Writes o v) :
    ∃ x, t.Names x v :=
  h.name_of_mention (fun _ _ lowers => lowers.outputs) write

theorem Shown.named_of_reads {x : String} (read : t.Reads x) : ∃ v, t.Names x v :=
  h.named_of_mention (fun _ _ lowers => lowers.inputs) read

theorem Shown.named_of_computes {x : String} (computes : t.Computes x) : ∃ v, t.Names x v :=
  h.named_of_mention (fun _ _ lowers => lowers.outputs) computes

variable (distinct : (t.tensors.map (·.name)).Nodup)

include distinct

theorem Shown.precedes_iff {a b : OperatorId} : O.Precedes a b ↔ t.Feeds a.index b.index := by
  constructor
  · rintro ⟨v, write, read⟩
    obtain ⟨x, hx⟩ := h.name_of_writes write
    obtain ⟨n, hn, written⟩ := (h.writes_iff distinct hx).1 write
    obtain ⟨m, hm, read⟩ := (h.reads_iff distinct hx).1 read
    exact ⟨n, m, x, hn, hm, written, read⟩
  · rintro ⟨n, m, x, hn, hm, written, read⟩
    obtain ⟨v, hx⟩ := h.named_of_reads ⟨m, List.mem_of_getElem? hm, read⟩
    exact ⟨v, (h.writes_iff distinct hx).2 ⟨n, hn, written⟩,
      (h.reads_iff distinct hx).2 ⟨m, hm, read⟩⟩

theorem Shown.ranked_iff : (∃ rank, O.Ranked rank) ↔ ∀ i, ¬TransGen t.Feeds i i := by
  constructor
  · rintro ⟨rank, ranked⟩ i cycle
    have rising (a b : Nat) (feeds : t.Feeds a b) : rank ⟨a⟩ < rank ⟨b⟩ :=
      ranked ⟨a⟩ ⟨b⟩ ((h.precedes_iff distinct).2 feeds)
    have rises : rank ⟨i⟩ < rank ⟨i⟩ := rank_lt_of_path rising cycle
    exact Nat.lt_irrefl _ rises
  · intro acyclic
    have within (a b : Nat) (feeds : t.Feeds a b) : a ∈ List.range t.nodes.length := by
      obtain ⟨n, _, _, hn, _⟩ := feeds
      exact List.mem_range.2 (List.getElem?_eq_some_iff.1 hn).1
    obtain ⟨rank, rising⟩ := exists_rank within acyclic
    exact ⟨fun o => rank o.index, fun a b precedes =>
      rising _ _ ((h.precedes_iff distinct).1 precedes)⟩

theorem Shown.typed {o : OperatorId} {op : Operator Binary32} (ho : O.operators o = some op) :
    ∃ v, op.outputs = [v] ∧
      op.kind.outputShape (op.inputs.map O.shape) = .ok (O.shape v) := by
  obtain ⟨n, _, lowers⟩ := h.operator ho
  obtain ⟨w, outputs, _, typed⟩ :=
    (h.applies_iff distinct lowers.inputs lowers.outputs).1 lowers.applies
  exact ⟨w, outputs, typed⟩

theorem Shown.inputs_free (ins : List.Forall₂ t.Names t.inputs O.inputs)
    (free : ∀ x ∈ t.inputs, ¬t.Carries x ∧ ¬t.Computes x) {v : VariableId} (hv : v ∈ O.inputs) :
    O.payload? v = none ∧ ∀ o, ¬O.Writes o v := by
  obtain ⟨x, mem, hx⟩ := exists_left ins hv
  obtain ⟨loose, fresh⟩ := free x mem
  rw [h.carries_iff distinct hx] at loose
  exact ⟨Classical.not_not.1 loose,
    fun o write => fresh ((h.written_iff distinct hx).1 ⟨o, write⟩)⟩

/-- The outline of a trace is sound if no input has another source, no nodes wait for each other,
and what is read has a source and what is computed a use. -/
theorem Shown.sound_iff (proper : ∀ d ∈ t.tensors, d.Proper)
    (computed : ∀ n ∈ t.nodes, ∀ y ∈ n.outputs, ¬t.Carries y)
    (ins : List.Forall₂ t.Names t.inputs O.inputs)
    (outs : List.Forall₂ t.Names t.outputs O.outputs) : (∃ rank, O.Sound rank) ↔
      (∀ x ∈ t.inputs, ¬t.Carries x ∧ ¬t.Computes x) ∧ (∀ i, ¬TransGen t.Feeds i i) ∧
      (∀ x, t.Reads x ∨ x ∈ t.outputs → x ∈ t.inputs ∨ t.Carries x ∨ t.Computes x) ∧
      ∀ x, t.Computes x → t.Reads x ∨ x ∈ t.outputs := by
  have carries {x v} (hx : t.Names x v) := h.carries_iff distinct hx
  have computes {x v} (hx : t.Names x v) : (∃ o, O.Writes o v) ↔ t.Computes x :=
    h.written_iff distinct hx
  have reads {x v} (hx : t.Names x v) : (∃ o, O.Reads o v) ↔ t.Reads x := h.read_iff distinct hx
  have isInput {x v} (hx : t.Names x v) := Names.mem_iff distinct ins hx
  have isOutput {x v} (hx : t.Names x v) := Names.mem_iff distinct outs hx
  constructor
  · rintro ⟨rank, sound⟩
    refine ⟨fun x mem => ?_, (h.ranked_iff distinct).1 ⟨rank, sound.ranked⟩, fun x needed => ?_,
      fun x computed => ?_⟩
    · obtain ⟨v, hv, hx⟩ := exists_right ins mem
      obtain ⟨unset, free⟩ := sound.inputs_free hv
      rw [carries hx, ← computes hx]
      exact ⟨fun set => set unset, fun ⟨o, write⟩ => free o write⟩
    · obtain ⟨v, hx⟩ : ∃ v, t.Names x v := by
        rcases needed with read | output
        · exact h.named_of_reads read
        · obtain ⟨v, _, hv⟩ := exists_right outs output
          exact ⟨v, hv⟩
      rw [← reads hx, ← isOutput hx] at needed
      rw [carries hx, ← computes hx, ← isInput hx]
      rcases sound.sourced needed with constant | written | input
      · exact .inr (.inl constant)
      · exact .inr (.inr written)
      · exact .inl input
    · obtain ⟨v, hx⟩ := h.named_of_computes computed
      rw [← computes hx] at computed
      rw [← reads hx, ← isOutput hx]
      obtain ⟨o, write⟩ := computed
      exact sound.used write
  · rintro ⟨inputs, acyclic, sourced, used⟩
    obtain ⟨rank, ranked⟩ := (h.ranked_iff distinct).2 acyclic
    refine ⟨rank, h.typed distinct, ?_, h.positive proper, h.inputs_free distinct ins inputs,
      ?_, ?_, ranked⟩
    · intro o v write
      obtain ⟨x, hx⟩ := h.name_of_writes write
      obtain ⟨n, hn, mem⟩ := (computes hx).1 ⟨o, write⟩
      have unset := computed n hn x mem
      rw [carries hx] at unset
      exact Classical.not_not.1 unset
    · intro v needed
      obtain ⟨x, hx⟩ : ∃ x, t.Names x v := by
        rcases needed with ⟨o, read⟩ | output
        · exact h.name_of_reads read
        · obtain ⟨x, _, hx⟩ := exists_left outs output
          exact ⟨x, hx⟩
      rw [reads hx, isOutput hx] at needed
      rw [← carries hx, computes hx, isInput hx]
      rcases sourced x needed with input | constant | written
      · exact .inr (.inr input)
      · exact .inl constant
      · exact .inr (.inl written)
    · intro o v write
      obtain ⟨x, hx⟩ := h.name_of_writes write
      rw [reads hx, isOutput hx]
      exact used x ((computes hx).1 ⟨o, write⟩)

end

end Trace

end TensorGraph
