import Mathlib.Logic.Relation
import TensorGraph.Proofs.Graph.Order

/-!
# TensorGraph.Proofs.Graph.Cycle

Operators that wait for each other.

* `Outline.OnCycle`: following dependencies leads from an operator back to it.
* `Outline.Stalled`: an operator is on a cycle, or depends on one that is.
* `exists_rank`: without cycles there are ranks, and with ranks there is no cycle.
* `isCyclic_iff_path`: stripping leaves something of a digraph exactly when it has a cycle.
* `Correct.emitted_iff`: when nothing is ready any more, what is stalled is not emitted, and all
  else is.
-/

namespace TensorGraph

open Relation (TransGen ReflTransGen)

variable {α β : Type}

/-! ## Ranks and cycles -/

theorem rank_lt_of_path {r : β → β → Prop} {rank : β → Nat}
    (rising : ∀ a b, r a b → rank a < rank b) {a b : β} (path : TransGen r a b) :
    rank a < rank b := by
  induction path with
  | single edge => exact rising _ _ edge
  | tail _ edge ih => exact Nat.lt_trans ih (rising _ _ edge)

open Classical in
/-- The rank of an element is the number of those that lead to it. -/
theorem exists_rank {r : β → β → Prop} {nodes : List β} (within : ∀ a b, r a b → a ∈ nodes)
    (acyclic : ∀ a, ¬TransGen r a a) : ∃ rank : β → Nat, ∀ a b, r a b → rank a < rank b := by
  refine ⟨fun b => (nodes.filter fun m => TransGen r m b).length, fun a b edge => ?_⟩
  have fewer : (nodes.filter fun m => TransGen r m a) =
      (nodes.filter fun m => TransGen r m b).filter fun m => TransGen r m a := by
    rw [List.filter_filter]
    refine List.filter_congr fun m _ => ?_
    by_cases path : TransGen r m a
    · simp [path, path.tail edge]
    · simp [path]
  show List.length _ < List.length _
  rw [fewer]
  refine List.length_filter_lt_length_iff_exists.2 ⟨a, List.mem_filter.2 ⟨within a b edge, ?_⟩, ?_⟩
  · simpa using TransGen.single edge
  · simpa using acyclic a

/-- An edge of a digraph leads from `a` to `b`. -/
def Digraph.Edge (d : Digraph) (a b : Nat) : Prop := (a, b) ∈ d.edges

theorem Digraph.isCyclic_iff_path {d : Digraph}
    (within : Within (List.range d.labels.length) d.edges) :
    d.isCyclic = true ↔ ∃ n, TransGen d.Edge n n := by
  rw [← Bool.not_eq_false, isCyclic_eq_false_iff within, ← not_iff_not, Classical.not_not]
  constructor
  · rintro ⟨rank, rising⟩ ⟨n, path⟩
    exact Nat.lt_irrefl _ (rank_lt_of_path rising path)
  · intro acyclic
    exact exists_rank (fun a b edge => (within a b edge).1) (not_exists.1 acyclic)

namespace Outline

/-- Following dependencies leads from `o` back to `o`. -/
def OnCycle (O : Outline α) (o : OperatorId) : Prop := TransGen O.Precedes o o

/-- `o` is on a cycle, or depends on an operator that is. -/
def Stalled (O : Outline α) (o : OperatorId) : Prop :=
  ∃ a, O.OnCycle a ∧ ReflTransGen O.Precedes a o

variable {O : Outline α}

theorem OnCycle.stalled {o : OperatorId} (h : O.OnCycle o) : O.Stalled o := ⟨o, h, .refl⟩

theorem Stalled.of_precedes {a b : OperatorId} (h : O.Stalled a) (precedes : O.Precedes a b) :
    O.Stalled b := by
  obtain ⟨c, cycle, path⟩ := h
  exact ⟨c, cycle, path.tail precedes⟩

/-- Whatever is stalled reads something. -/
theorem Stalled.live {o : OperatorId} (h : O.Stalled o) : ∃ op, O.operators o = some op := by
  obtain ⟨a, cycle, path⟩ := h
  obtain ⟨b, _, _, _, op, ho, _⟩ := TransGen.tail'_iff.1 (TransGen.trans_left cycle path)
  exact ⟨op, ho⟩

theorem Precedes.live {a b : OperatorId} (h : O.Precedes a b) :
    ∃ op, O.operators a = some op := by
  obtain ⟨_, ⟨op, ha, _⟩, _⟩ := h
  exact ⟨op, ha⟩

end Outline

section

variable {g : Graph α}

open TensorGraph.Graph

theorem ranked_iff_acyclic (h : g.Linked) :
    (∃ rank, g.outline.Ranked rank) ↔ ∀ o, ¬g.outline.OnCycle o := by
  constructor
  · rintro ⟨rank, ranked⟩ o cycle
    exact Nat.lt_irrefl _ (rank_lt_of_path ranked cycle)
  · intro acyclic
    exact exists_rank (fun a b precedes => (mem_operatorIds h).2 precedes.live) acyclic

namespace Sweep

variable {s : Sweep}

/-- Whatever leads to an emitted operator was emitted before it. -/
theorem Correct.earlier_of_path (inv : Correct g s) {a b : OperatorId}
    (path : TransGen g.outline.Precedes a b) {later earlier : List OperatorId}
    (e : s.emitted = later ++ b :: earlier) : a ∈ earlier := by
  induction path generalizing later earlier with
  | single precedes => exact inv.closed later _ earlier e a precedes
  | @tail b c _ precedes ih =>
    obtain ⟨between, first, rfl⟩ := List.append_of_mem (inv.closed later c earlier e b precedes)
    have split : s.emitted = (later ++ c :: between) ++ b :: first := by simp [e]
    have mem : a ∈ first := ih split
    exact List.mem_append_right _ (List.mem_cons_of_mem b mem)

theorem Correct.not_stalled (inv : Correct g s) {o : OperatorId} (ho : o ∈ s.emitted) :
    ¬g.outline.Stalled o := by
  rintro ⟨a, cycle, path⟩
  -- The cycle leads to itself and so to `o`.
  obtain ⟨later, earlier, e⟩ := List.append_of_mem ho
  have ha : a ∈ earlier := inv.earlier_of_path (TransGen.trans_left cycle path) e
  obtain ⟨between, first, rfl⟩ := List.append_of_mem ha
  have split : s.emitted = (later ++ o :: between) ++ a :: first := by simp [e]
  have again : a ∈ first := inv.earlier_of_path cycle split
  have nodup : (later ++ o :: between ++ a :: first).Nodup := by simpa [e] using inv.nodup
  exact (List.nodup_cons.1 (List.nodup_append.1 nodup).2.1).1 again

/-- When nothing is ready any more, what is stalled is not emitted, and all else is. -/
theorem Correct.emitted_iff (h : g.Linked) (inv : Correct g s) (done : s.ready = [])
    {o : OperatorId} (live : o ∈ g.operatorIds) : o ∈ s.emitted ↔ ¬g.outline.Stalled o := by
  refine ⟨inv.not_stalled, fun free => ?_⟩
  by_contra fresh
  -- Where nothing is stalled there are no cycles, so there are ranks.
  let reads (a b : OperatorId) : Prop := g.outline.Precedes a b ∧ ¬g.outline.Stalled b
  have acyclic (a : OperatorId) : ¬TransGen reads a a := by
    intro cycle
    obtain ⟨b, _, _, free⟩ := TransGen.tail'_iff.1 cycle
    have onCycle : g.outline.OnCycle a := TransGen.mono (fun _ _ edge => edge.1) a a cycle
    exact free onCycle.stalled
  have within (a b : OperatorId) (edge : reads a b) : a ∈ g.operatorIds :=
    (mem_operatorIds h).2 edge.1.live
  obtain ⟨rank, ranked⟩ := exists_rank within acyclic
  have rising (a b : OperatorId) (precedes : g.outline.Precedes a b) (hb : ¬g.outline.Stalled b) :
      ¬g.outline.Stalled a ∧ rank a < rank b :=
    ⟨fun stalled => hb (stalled.of_precedes precedes), ranked a b ⟨precedes, hb⟩⟩
  exact inv.ready_of_ranked h (fun p => ¬g.outline.Stalled p) rising free live fresh done

end Sweep

end

end TensorGraph
