import Mathlib.Tactic.ByContra
import TensorGraph.Proofs.Graph.Validation

/-!
# TensorGraph.Proofs.Graph.Dependency

When operators wait for each other.

* `Outline.Precedes`: an operator reads what another one writes.
* `Outline.Ranked`: a number for every operator that grows along dependencies.
* `Digraph.strip_empty_iff`: stripping leaves nothing of a digraph exactly when its nodes can be
  ranked.
* `isCyclic_iff`: a linked graph is acyclic exactly when its operators can be ranked.
-/

namespace TensorGraph

variable {α : Type}

namespace Outline

/-- `b` reads an output of `a`. -/
def Precedes (O : Outline α) (a b : OperatorId) : Prop := ∃ v, O.Writes a v ∧ O.Reads b v

/-- Dependencies lead from smaller to greater numbers. -/
def Ranked (O : Outline α) (rank : OperatorId → Nat) : Prop :=
  ∀ a b, O.Precedes a b → rank a < rank b

end Outline

namespace Digraph

/-- Edges lead from smaller to greater numbers. -/
def Rising (edges : List (Nat × Nat)) (rank : Nat → Nat) : Prop :=
  ∀ a b, (a, b) ∈ edges → rank a < rank b

/-- Edges lead from nodes to nodes. -/
def Within (nodes : List Nat) (edges : List (Nat × Nat)) : Prop :=
  ∀ a b, (a, b) ∈ edges → a ∈ nodes ∧ b ∈ nodes

/-- The nodes that some edge leads into. -/
def entered (nodes : List Nat) (edges : List (Nat × Nat)) : List Nat :=
  nodes.filter fun n => edges.any fun (_, target) => target == n

theorem mem_entered {nodes : List Nat} {edges : List (Nat × Nat)} {n : Nat} :
    n ∈ entered nodes edges ↔ n ∈ nodes ∧ ∃ a, (a, n) ∈ edges := by
  simp [entered]

/-- The edges that are left when only the entered nodes are. -/
def inner (nodes : List Nat) (edges : List (Nat × Nat)) : List (Nat × Nat) :=
  edges.filter fun (source, _) => (entered nodes edges).contains source

theorem mem_inner {nodes : List Nat} {edges : List (Nat × Nat)} {a b : Nat} :
    (a, b) ∈ inner nodes edges ↔ (a, b) ∈ edges ∧ a ∈ entered nodes edges := by
  simp [inner]

theorem strip_succ (n : Nat) (nodes : List Nat) (edges : List (Nat × Nat)) :
    strip (n + 1) nodes edges = strip n (entered nodes edges) (inner nodes edges) := rfl

theorem Within.inner {nodes : List Nat} {edges : List (Nat × Nat)} (h : Within nodes edges) :
    Within (entered nodes edges) (inner nodes edges) := by
  intro a b hab
  obtain ⟨edge, ha⟩ := mem_inner.1 hab
  exact ⟨ha, mem_entered.2 ⟨(h a b edge).2, a, edge⟩⟩

/-- A node of least rank is not entered, so every round strips one node at least. -/
theorem entered_shorter {nodes : List Nat} {edges : List (Nat × Nat)} {rank : Nat → Nat}
    (within : Within nodes edges) (rising : Rising edges rank) (some_left : nodes ≠ []) :
    (entered nodes edges).length < nodes.length := by
  obtain ⟨n, hn, least⟩ : ∃ n ∈ nodes, ∀ m ∈ nodes, rank n ≤ rank m := by
    obtain ⟨m, hm⟩ := List.exists_mem_of_ne_nil nodes some_left
    induction h : rank m using Nat.strongRecOn generalizing m with
    | ind k ih =>
      by_cases best : ∀ m' ∈ nodes, rank m ≤ rank m'
      · exact ⟨m, hm, best⟩
      · obtain ⟨m', rest⟩ := Classical.not_forall.1 best
        obtain ⟨hm', less⟩ := Classical.not_imp.1 rest
        exact ih (rank m') (by omega) m' hm' rfl
  refine List.length_filter_lt_length_iff_exists.2 ⟨n, hn, fun he => ?_⟩
  obtain ⟨a, edge⟩ : ∃ a, (a, n) ∈ edges := by simpa using he
  have below := rising a n edge
  have above := least a (within a n edge).1
  omega

theorem strip_empty {nodes : List Nat} {edges : List (Nat × Nat)} {rank : Nat → Nat}
    (within : Within nodes edges) (rising : Rising edges rank) (rounds : Nat)
    (enough : nodes.length ≤ rounds) : strip rounds nodes edges = [] := by
  induction rounds generalizing nodes edges with
  | zero =>
    show nodes = []
    exact List.eq_nil_of_length_eq_zero (by omega)
  | succ n ih =>
    rw [strip_succ]
    refine ih within.inner (fun a b hab => rising a b (mem_inner.1 hab).1) ?_
    by_cases none_left : nodes = []
    · subst none_left
      exact Nat.zero_le n
    · have := entered_shorter within rising none_left
      omega

/-- The rank of a node is the number of rounds that it survives. -/
theorem rising_of_strip {nodes : List Nat} {edges : List (Nat × Nat)} {rounds : Nat}
    (within : Within nodes edges) (stripped : strip rounds nodes edges = []) :
    ∃ rank, Rising edges rank := by
  induction rounds generalizing nodes edges with
  | zero =>
    refine ⟨fun _ => 0, fun a b hab => ?_⟩
    have ha := (within a b hab).1
    have none_left : nodes = [] := stripped
    rw [none_left] at ha
    cases ha
  | succ n ih =>
    rw [strip_succ] at stripped
    obtain ⟨rank, rising⟩ := ih within.inner stripped
    refine ⟨fun m => if m ∈ entered nodes edges then rank m + 1 else 0, fun a b hab => ?_⟩
    have hb : b ∈ entered nodes edges := mem_entered.2 ⟨(within a b hab).2, a, hab⟩
    by_cases ha : a ∈ entered nodes edges
    · have := rising a b (mem_inner.2 ⟨hab, ha⟩)
      simp only [ha, hb, if_true]
      omega
    · simp only [ha, hb, if_true, if_false]
      omega

theorem isCyclic_eq_false_iff {d : Digraph}
    (within : Within (List.range d.labels.length) d.edges) :
    d.isCyclic = false ↔ ∃ rank, Rising d.edges rank := by
  rw [isCyclic, Bool.not_eq_false', List.isEmpty_iff]
  constructor
  · exact rising_of_strip within
  · rintro ⟨rank, rising⟩
    exact strip_empty within rising _ (Nat.le_of_eq List.length_range)

theorem mem_addEdge {d : Digraph} {e f : Nat × Nat} :
    f ∈ (d.addEdge e).edges ↔ f = e ∨ f ∈ d.edges := by
  unfold addEdge
  split
  · next h =>
    constructor
    · exact .inr
    · rintro (rfl | h')
      · simpa using h
      · exact h'
  · simp [or_comm]

theorem addEdge_labels (d : Digraph) (e : Nat × Nat) : (d.addEdge e).labels = d.labels := by
  unfold addEdge; split <;> rfl

end Digraph

namespace Graph

variable {g : Graph α}

def operatorIds (g : Graph α) : List OperatorId := g.liveOperators.map (·.id)

theorem mem_operatorIds (h : g.Linked) {o : OperatorId} :
    o ∈ g.operatorIds ↔ ∃ op, g.operatorAt? o = some op := by
  rw [operatorIds, List.mem_map]
  constructor
  · rintro ⟨op, hop, rfl⟩
    exact ⟨op, (mem_liveOperators h).1 hop⟩
  · rintro ⟨op, hop⟩
    have id := h.operator_id hop
    exact ⟨op, (mem_liveOperators h).2 (by rw [id, hop]), id⟩

theorem producer?_iff (h : g.Linked) {v : VariableId} {o : OperatorId} :
    g.producer? v = some o ↔ g.outline.Writes o v := by
  constructor
  · intro e
    obtain ⟨x, hx, hp⟩ := Option.bind_eq_some_iff.1 e
    exact (h.producer_iff hx o).1 hp
  · intro hw
    obtain ⟨x, hx⟩ := live_iff.1 (h.output_live hw)
    rw [producer?_of hx, h.producer_iff hx]
    exact hw

/-- A position is that of one operator, and every live operator has one. -/
theorem position?_id {o : OperatorId} {i : Nat} (hi : g.position? o = some i) :
    ∃ op, g.liveOperators[i]? = some op ∧ op.id = o := by
  obtain ⟨bound, here, _⟩ := List.findIdx?_eq_some_iff_getElem.1 hi
  exact ⟨_, List.getElem?_eq_getElem bound, by simpa using here⟩

theorem position?_live (h : g.Linked) {o : OperatorId} {op : Operator α}
    (ho : g.operatorAt? o = some op) : ∃ i, g.position? o = some i := by
  cases hp : g.position? o with
  | some i => exact ⟨i, rfl⟩
  | none =>
    have id := h.operator_id ho
    have mem : op ∈ g.liveOperators := (mem_liveOperators h).2 (by rw [id, ho])
    have := List.findIdx?_eq_none_iff.1 hp op mem
    simp [id] at this

/-- The dependency of the operator `o` on whatever computes `v`. -/
def dependency (g : Graph α) (d : Digraph) (v : VariableId) (o : OperatorId) : Digraph :=
  match (g.producer? v).bind g.position?, g.position? o with
  | some a, some b => d.addEdge (a, b)
  | _, _ => d

theorem mem_dependency {d : Digraph} {v : VariableId} {o : OperatorId} {a b : Nat} :
    (a, b) ∈ (g.dependency d v o).edges ↔ ((g.producer? v).bind g.position? = some a ∧
      g.position? o = some b) ∨ (a, b) ∈ d.edges := by
  unfold dependency
  split
  · next a' b' ha hb => simp [ha, hb, Digraph.mem_addEdge, eq_comm]
  · next none_left =>
    constructor
    · exact .inr
    · rintro (⟨ha, hb⟩ | edge)
      · exact absurd hb (none_left a b ha)
      · exact edge

theorem dependency_labels (d : Digraph) (v : VariableId) (o : OperatorId) :
    (g.dependency d v o).labels = d.labels := by
  unfold dependency
  split
  · exact Digraph.addEdge_labels _ _
  · rfl

theorem mem_foldl_dependency (operands : List (VariableId × OperatorId)) (d : Digraph)
    {a b : Nat} :
    (a, b) ∈ (operands.foldl (fun d (v, o) => g.dependency d v o) d).edges ↔
      (∃ v o, (v, o) ∈ operands ∧ (g.producer? v).bind g.position? = some a ∧
        g.position? o = some b) ∨ (a, b) ∈ d.edges := by
  induction operands generalizing d with
  | nil => simp
  | cons entry rest ih =>
    obtain ⟨v, o⟩ := entry
    rw [List.foldl_cons, ih, mem_dependency]
    constructor
    · rintro (⟨v', o', hm, found⟩ | found | edge)
      · exact .inl ⟨v', o', List.mem_cons_of_mem _ hm, found⟩
      · exact .inl ⟨v, o, List.mem_cons_self, found⟩
      · exact .inr edge
    · rintro (⟨v', o', hm, found⟩ | edge)
      · rcases List.mem_cons.1 hm with e | hm
        · cases e
          exact .inr (.inl found)
        · exact .inl ⟨v', o', hm, found⟩
      · exact .inr (.inr edge)

theorem dependencies_labels (g : Graph α) :
    g.dependencies.labels.length = g.liveOperators.length := by
  have labels (operands : List (VariableId × OperatorId)) (d : Digraph) :
      (operands.foldl (fun d (v, o) => g.dependency d v o) d).labels = d.labels := by
    induction operands generalizing d with
    | nil => rfl
    | cons entry rest ih => rw [List.foldl_cons, ih, dependency_labels]
  exact (congrArg List.length (labels _ _)).trans (List.length_map _)

/-- The edges are the pairs of positions of operators one of which reads from the other. -/
theorem mem_dependencies (h : g.Linked) {a b : Nat} :
    (a, b) ∈ g.dependencies.edges ↔ ∃ p o, g.outline.Precedes p o ∧
      g.position? p = some a ∧ g.position? o = some b := by
  refine (mem_foldl_dependency _ _).trans ?_
  constructor
  · rintro (⟨v, o, hm, ha, hb⟩ | none_left)
    · obtain ⟨op, hop, hv⟩ := List.mem_flatMap.1 hm
      obtain ⟨w, hw, e⟩ := List.mem_map.1 hv
      cases e
      obtain ⟨p, hp, ha⟩ := Option.bind_eq_some_iff.1 ha
      exact ⟨p, op.id, ⟨v, (producer?_iff h).1 hp, op, (mem_liveOperators h).1 hop, hw⟩, ha, hb⟩
    · cases none_left
  · rintro ⟨p, o, ⟨v, hw, op, ho, hv⟩, ha, hb⟩
    have id : op.id = o := h.operator_id ho
    refine .inl ⟨v, o, List.mem_flatMap.2 ⟨op, (mem_liveOperators h).2 (id ▸ ho), ?_⟩, ?_, hb⟩
    · exact List.mem_map.2 ⟨v, hv, by rw [id]⟩
    · rw [(producer?_iff h).2 hw]
      exact ha

theorem dependencies_within (h : g.Linked) :
    Digraph.Within (List.range g.dependencies.labels.length) g.dependencies.edges := by
  intro a b edge
  obtain ⟨p, o, _, ha, hb⟩ := (mem_dependencies h).1 edge
  obtain ⟨op, hop, _⟩ := position?_id ha
  obtain ⟨op', hop', _⟩ := position?_id hb
  rw [dependencies_labels, List.mem_range, List.mem_range]
  exact ⟨(List.getElem?_eq_some_iff.1 hop).1, (List.getElem?_eq_some_iff.1 hop').1⟩

theorem isCyclic_iff (h : g.Linked) :
    g.dependencies.isCyclic = false ↔ ∃ rank, g.outline.Ranked rank := by
  rw [Digraph.isCyclic_eq_false_iff]
  · constructor
    · rintro ⟨rank, rising⟩
      refine ⟨fun o => rank ((g.position? o).getD 0), fun p o precedes => ?_⟩
      obtain ⟨v, ⟨op, hp, _⟩, op', ho, _⟩ := id precedes
      obtain ⟨a, ha⟩ := position?_live h hp
      obtain ⟨b, hb⟩ := position?_live h ho
      have edge := rising a b ((mem_dependencies h).2 ⟨p, o, precedes, ha, hb⟩)
      simpa only [ha, hb, Option.getD_some] using edge
    · rintro ⟨rank, ranked⟩
      refine ⟨fun i => ((g.liveOperators[i]?).map fun op => rank op.id).getD 0, fun a b edge => ?_⟩
      obtain ⟨p, o, precedes, ha, hb⟩ := (mem_dependencies h).1 edge
      obtain ⟨op, hop, rfl⟩ := position?_id ha
      obtain ⟨op', hop', rfl⟩ := position?_id hb
      simpa only [hop, hop', Option.map_some, Option.getD_some] using ranked _ _ precedes
  · exact dependencies_within h

end Graph

end TensorGraph
