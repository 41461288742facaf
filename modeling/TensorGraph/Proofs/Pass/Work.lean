import Mathlib.Data.Prod.Lex
import TensorGraph.Proofs.Graph.Order
import TensorGraph.Proofs.Graph.Reachable

/-!
# TensorGraph.Proofs.Pass.Work

What is left to do in a graph, as a number that falls with every change.

* `OperatorKind.work`: what passes can still do to an operator, taking it out included.
* `Graph.load_relink`: where one operator is changed, a sum over all operators changes by what that
  operator weighs.
* `SameKinds`, `Spent`: what calls of edits do to the kinds of operators, to their number and to
  the work that is left.
* `Graph.size`: the work and the number of variables, in this order.
-/

namespace TensorGraph

variable {α : Type}

open TensorGraph.Graph Edit

/-- Every operator may be taken out. Before that the margins of a window may be spelled out, a
filter reordered and a normalization made a scale and a shift. -/
def OperatorKind.work : OperatorKind α → Nat
  | .convolution p =>
    1 + (if p.padding.isExplicit then 0 else 1) + if p.layout = .oihw then 1 else 0
  | .pooling p => if p.ceilMode || !p.padding.isExplicit then 2 else 1
  | .batchNormalization _ => 2
  | _ => 1

theorem OperatorKind.work_pos (kind : OperatorKind α) : 0 < kind.work := by
  cases kind with
  | convolution p =>
    simp only [work]
    omega
  | pooling p =>
    simp only [work]
    split <;> decide
  | batchNormalization => exact Nat.two_pos
  | _ => exact Nat.one_pos

theorem Convolution.work_reordered {p : Convolution α} (layout : p.layout = .oihw)
    (input : Extent) :
    (OperatorKind.convolution { p.withExplicitMargins input with layout := .ohwi }).work <
      (OperatorKind.convolution p).work := by
  have explicit : (p.withExplicitMargins input).padding.isExplicit = true := rfl
  simp only [OperatorKind.work, explicit, layout]
  generalize p.padding.isExplicit = before
  cases before <;> simp

theorem Convolution.work_explicit {p : Convolution α} (implicit : p.padding.isExplicit = false)
    (input : Extent) : (OperatorKind.convolution (p.withExplicitMargins input)).work <
      (OperatorKind.convolution p).work := by
  have explicit : (p.withExplicitMargins input).padding.isExplicit = true := rfl
  have layout : (p.withExplicitMargins input).layout = p.layout := rfl
  simp only [OperatorKind.work, explicit, implicit, layout]
  cases p.layout <;> simp

theorem Pooling.work_explicit {p : Pooling}
    (implicit : (p.ceilMode || !p.padding.isExplicit) = true) (input : Extent) :
    (OperatorKind.pooling (p.withExplicitMargins input) : OperatorKind α).work <
      (OperatorKind.pooling p : OperatorKind α).work := by
  have explicit : ((p.withExplicitMargins input).ceilMode ||
      !(p.withExplicitMargins input).padding.isExplicit) = false := rfl
  simp [OperatorKind.work, implicit, explicit]

theorem OperatorKind.work_withActivation (kind : OperatorKind α) (a : Activation α) :
    (kind.withActivation a).work = kind.work := by
  cases kind <;> rfl

namespace Graph

variable {g g' : Graph α}

/-- What an operator computes, if it is live. -/
def kindAt? (g : Graph α) (o : OperatorId) : Option (OperatorKind α) :=
  (g.operatorAt? o).map Operator.kind

theorem kindAt?_of {o : OperatorId} {op : Operator α} (ho : g.operatorAt? o = some op) :
    g.kindAt? o = some op.kind := by
  rw [kindAt?, ho]
  rfl

/-! ## Sums over operators -/

/-- The weights of all operators, for a weight of each kind. -/
def load (w : OperatorKind α → Nat) (g : Graph α) : Nat :=
  (g.liveOperators.map fun op => w op.kind).sum

/-- The work that is left. -/
def work (g : Graph α) : Nat := g.load OperatorKind.work

theorem load_one (g : Graph α) : g.load (fun _ => 1) = g.operatorCount := by
  simp [load, operatorCount]

/-- What one operator weighs; a dead one weighs nothing. -/
def weightAt (w : OperatorKind α → Nat) (g : Graph α) (o : OperatorId) : Nat :=
  (g.kindAt? o).elim 0 w

theorem mem_operatorIds_iff (h : g.Linked) {o : OperatorId} :
    o ∈ g.operatorIds ↔ g.kindAt? o ≠ none := by
  rw [mem_operatorIds h, kindAt?, ne_eq, Option.map_eq_none_iff]
  exact Option.ne_none_iff_exists'.symm

theorem load_eq (h : g.Linked) (w : OperatorKind α → Nat) :
    g.load w = (g.operatorIds.map (g.weightAt w)).sum := by
  rw [load, operatorIds, List.map_map]
  refine congrArg List.sum (List.map_congr_left fun op live => ?_)
  rw [Function.comp_apply, weightAt, kindAt?_of ((mem_liveOperators h).1 live)]
  rfl

/-- One operator apart from the others. -/
theorem load_split (h : g.Linked) (w : OperatorKind α → Nat) (o : OperatorId) :
    g.load w = g.weightAt w o + ((g.operatorIds.filter (· ≠ o)).map (g.weightAt w)).sum := by
  rw [load_eq h]
  by_cases live : o ∈ g.operatorIds
  · have first := (List.perm_cons_erase live).map (g.weightAt w)
    rw [(operatorIds_nodup h).erase_eq_filter] at first
    simpa [bne, beq_eq_decide] using first.sum_nat
  · have dead : g.kindAt? o = none :=
      Classical.not_not.1 fun ne => live ((mem_operatorIds_iff h).2 ne)
    have others : g.operatorIds.filter (· ≠ o) = g.operatorIds :=
      List.filter_eq_self.2 fun p hp => by simpa using fun e : p = o => live (e ▸ hp)
    rw [others, weightAt, dead, Option.elim_none, Nat.zero_add]

/-- Graphs that differ in one operator differ in weight by what it weighs. -/
theorem load_relink (h : g.Linked) (h' : g'.Linked) (w : OperatorKind α → Nat) {o : OperatorId}
    (same : ∀ p, p ≠ o → g'.kindAt? p = g.kindAt? p) :
    g'.load w + g.weightAt w o = g.load w + g'.weightAt w o := by
  have others : (g'.operatorIds.filter (· ≠ o)).Perm (g.operatorIds.filter (· ≠ o)) := by
    refine (List.perm_ext_iff_of_nodup ((operatorIds_nodup h').filter _)
      ((operatorIds_nodup h).filter _)).2 fun p => ?_
    simp only [List.mem_filter, mem_operatorIds_iff h, mem_operatorIds_iff h', decide_eq_true_eq]
    exact and_congr_left fun ne => by rw [same p ne]
  have weights : (g'.operatorIds.filter (· ≠ o)).map (g'.weightAt w) =
      (g'.operatorIds.filter (· ≠ o)).map (g.weightAt w) := by
    refine List.map_congr_left fun p hp => ?_
    rw [weightAt, weightAt, same p (by simpa using (List.mem_filter.1 hp).2)]
  rw [load_split h w o, load_split h' w o, weights, (others.map _).sum_nat]
  omega

/-! ## Calls -/

/-- Every operator computes what it computed before. -/
structure SameKinds (g g' : Graph α) : Prop where
  linked : g'.Linked
  kindAt? : ∀ o, g'.kindAt? o = g.kindAt? o

theorem SameKinds.refl (h : g.Linked) : SameKinds g g := ⟨h, fun _ => rfl⟩

theorem SameKinds.trans {g₁ : Graph α} (h : SameKinds g g₁) (h' : SameKinds g₁ g') :
    SameKinds g g' :=
  ⟨h'.linked, fun o => (h'.kindAt? o).trans (h.kindAt? o)⟩

theorem SameKinds.load (h : g.Linked) (same : SameKinds g g') (w : OperatorKind α → Nat) :
    g'.load w = g.load w := by
  have change := load_relink h same.linked w (o := ⟨0⟩) fun p _ => same.kindAt? p
  rw [weightAt, weightAt, same.kindAt?] at change
  omega

/-- `n` operators have gone, and the work that is left is less by `m` or more. -/
structure Spent (n m : Nat) (g g' : Graph α) : Prop where
  linked : g'.Linked
  count : g'.operatorCount + n = g.operatorCount
  work : g'.work + m ≤ g.work

theorem Spent.trans {g₁ : Graph α} {n m k l : Nat} (h : Spent n m g g₁) (h' : Spent k l g₁ g') :
    Spent (n + k) (m + l) g g' where
  linked := h'.linked
  count := by have := h.count; have := h'.count; omega
  work := by have := h.work; have := h'.work; omega

theorem SameKinds.spent (h : g.Linked) (same : SameKinds g g') : Spent 0 0 g g' where
  linked := same.linked
  count := by rw [← load_one, ← load_one, same.load h, Nat.add_zero]
  work := Nat.le_of_eq (same.load h _)

end Graph

/-- A call that adds no operator, takes none out and sets no kind. -/
def EditCall.Plain : EditCall α → Prop
  | .addOperator _ _ _ | .removeOperator _ | .setKind _ _ => False
  | _ => True

variable {g g' : Graph α}

theorem EditCall.effect_of_ok (c : EditCall α) (h : g.Linked) {u : Unit}
    (run : c.run g = .ok u g') : g'.Linked ∧ c.Effect g g'.outline := by
  rcases c.run_linked h with ⟨_, _, ⟨_, run', linked, rfl⟩, effect⟩ | ⟨_, run'⟩
  · cases run.symm.trans run'
    exact ⟨linked, effect⟩
  · cases run.symm.trans run'

theorem kindAt?_setOperator {o : OperatorId} {op? : Option (Operator α)}
    (e : g'.outline.operators = (g.outline.setOperator o op?).operators) (p : OperatorId) :
    g'.kindAt? p = if p = o then op?.map Operator.kind else g.kindAt? p := by
  show (g'.outline.operators p).map Operator.kind = _
  rw [e, Outline.setOperator_operators]
  split <;> rfl

theorem EditCall.Plain.sameKinds {c : EditCall α} (plain : c.Plain) (h : g.Linked) {u : Unit}
    (run : c.run g = .ok u g') : SameKinds g g' := by
  obtain ⟨linked, effect⟩ := c.effect_of_ok h run
  refine ⟨linked, fun p => ?_⟩
  -- Either no operator is touched, or one of them gets other operands.
  have untouched {O : Outline α} (e : g'.outline = O) (keeps : O.operators = g.outline.operators) :
      g'.kindAt? p = g.kindAt? p := by
    subst e
    exact congrArg (fun ops => (ops p).map Operator.kind) keeps
  have changed {o : OperatorId} {op op' : Operator α} (ho : g.operatorAt? o = some op)
      (e : g'.outline = g.outline.setOperator o (some op')) (kind : op'.kind = op.kind) :
      g'.kindAt? p = g.kindAt? p := by
    rw [kindAt?_setOperator (congrArg Outline.operators e)]
    split
    · next at_o => rw [at_o, kindAt?_of ho, ← kind]; rfl
    · rfl
  cases c with
  | addVariable | prune => exact untouched effect rfl
  | addConstant | designateInputs | designateOutputs =>
    exact untouched effect.2 rfl
  | setPayload =>
    obtain ⟨_, _, _, _, e⟩ := effect
    exact untouched e rfl
  | setInputs =>
    obtain ⟨_, ho, _, e⟩ := effect
    exact changed ho e rfl
  | replaceInput =>
    obtain ⟨_, ho, _, _, e⟩ := effect
    exact changed ho e rfl
  | rebindOutput =>
    obtain ⟨_, ho, _, _, _, e⟩ := effect
    exact changed ho e rfl
  | addOperator | removeOperator | setKind => exact plain.elim

theorem Graph.SameKinds.call {g₁ : Graph α} (same : SameKinds g g₁) (c : EditCall α)
    (plain : c.Plain) {u : Unit} (run : c.run g₁ = .ok u g') : SameKinds g g' :=
  same.trans (plain.sameKinds same.linked run)

/-- A kind in the place of another one, that leaves less to do or as much. -/
theorem setKind_spent (h : g.Linked) {o : OperatorId} {kind kind' : OperatorKind α} {u : Unit}
    (run : setKind o kind' g = .ok u g') (live : g.kindAt? o = some kind)
    (less : kind'.work ≤ kind.work) : Spent 0 (kind.work - kind'.work) g g' := by
  obtain ⟨linked, op, _, e⟩ := (EditCall.setKind o kind').effect_of_ok h run
  have kinds := kindAt?_setOperator (congrArg Outline.operators e)
  have change (w : OperatorKind α → Nat) : g'.load w + w kind = g.load w + w kind' := by
    have relink := load_relink h linked w fun p ne => (kinds p).trans (if_neg ne)
    rw [weightAt, weightAt, live, kinds o, if_pos rfl] at relink
    exact relink
  refine ⟨linked, ?_, ?_⟩
  · have := change fun _ => 1
    rw [load_one, load_one] at this
    omega
  · have : g'.work + kind.work = g.work + kind'.work := change OperatorKind.work
    omega

theorem removeOperator_spent (h : g.Linked) {o : OperatorId} {op : Operator α}
    (run : removeOperator o g = .ok op g') : Spent 1 1 g g' := by
  obtain ⟨linked, ⟨op, ho⟩, e⟩ := (EditCall.removeOperator o).effect_of_ok h (run_discard run)
  have kinds := kindAt?_setOperator (congrArg Outline.operators e)
  have change (w : OperatorKind α → Nat) : g'.load w + w op.kind = g.load w := by
    have relink := load_relink h linked w fun p ne => (kinds p).trans (if_neg ne)
    rw [weightAt, weightAt, kindAt?_of ho, kinds o, if_pos rfl] at relink
    exact relink
  refine ⟨linked, ?_, ?_⟩
  · have := change fun _ => 1
    rw [load_one, load_one] at this
    exact this
  · have : g'.work + op.kind.work = g.work := change OperatorKind.work
    have := op.kind.work_pos
    omega

/-- Operators taken out one after the other. -/
theorem removeAll_spent {β : Type} (id : β → OperatorId) (xs : List β) (h : g.Linked) {u : Unit}
    (run : (xs.forM fun x => discard (removeOperator (id x))) g = .ok u g') :
    Spent xs.length xs.length g g' := by
  induction xs generalizing g with
  | nil =>
    cases run
    exact ⟨h, rfl, Nat.le_refl _⟩
  | cons x xs ih =>
    obtain ⟨_, g₁, removed, run⟩ := run_bind_ok_iff.1 run
    obtain ⟨_, removed⟩ := run_discard_ok_iff.1 removed
    have first := removeOperator_spent h removed
    have both := first.trans (ih first.linked run)
    rwa [Nat.add_comm] at both

/-! ## Variables -/

/-- How large a graph is to the passes: the work that is left, and for graphs with as much of it
the number of variables. -/
def Graph.size (g : Graph α) : Nat ×ₗ Nat := toLex (g.work, g.variableCount)

theorem Graph.Spent.size_lt {n m : Nat} (h : Spent n m g g') (some_work : 0 < m) :
    g'.size < g.size := by
  have := h.work
  exact Prod.Lex.toLex_lt_toLex.2 (.inl (by omega))

/-- Pruning drops as many variables as it says, and if it says none the graph stays as it was. -/
theorem run_prune_ok {n : Nat} (run : prune g = .ok n g') :
    g'.variableCount + n = g.variableCount ∧ (n = 0 → g' = g) := by
  cases run
  constructor
  · show (g.variableSlots.keep (needed g)).live.length + _ = g.variableSlots.live.length
    rw [Arena.live_keep, ← List.countP_eq_length_filter,
      List.length_eq_countP_add_countP (needed g) (l := g.variableSlots.live)]
    simp [Graph.liveVariables]
  · intro none
    have all : ∀ x ∈ g.variableSlots.live, needed g x = true := fun x hx => by
      simpa using List.countP_eq_zero.1 none x hx
    rw [keep_eq_self all]

theorem prune_size (h : g.Linked) {n : Nat} (run : prune g = .ok n g') :
    SameKinds g g' ∧ g'.size ≤ g.size ∧ (0 < n → g'.size < g.size) := by
  obtain ⟨dropped, _⟩ := run_prune_ok run
  have same : SameKinds g g' :=
    EditCall.Plain.sameKinds (c := .prune) trivial h (run_discard run)
  have work : g'.work = g.work := same.load h _
  refine ⟨same, Prod.Lex.toLex_le_toLex.2 (.inr ⟨work, ?_⟩), fun some_dropped =>
    Prod.Lex.toLex_lt_toLex.2 (.inr ⟨work, ?_⟩)⟩
  · omega
  · omega

end TensorGraph
