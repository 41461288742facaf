/-!
# TensorGraph.Arena

Slots that are filled in order, may be emptied, and are never filled again.

* `Arena.get?`: the node in a slot, if the slot is filled.
* `Arena.live`: the nodes that are still there, in the order of their slots.

So an index either still names the node it was given for, or names nothing.
-/

namespace TensorGraph

structure Arena (ν : Type) where
  slots : List (Option ν)

namespace Arena

variable {ν : Type}

def empty : Arena ν := ⟨[]⟩

/-- The index that the next node gets. -/
def size (a : Arena ν) : Nat := a.slots.length

def get? (a : Arena ν) (i : Nat) : Option ν := (a.slots[i]?).join

def push (a : Arena ν) (x : ν) : Arena ν := ⟨a.slots ++ [some x]⟩

/-- Puts a node into an existing slot. -/
def put (a : Arena ν) (i : Nat) (x : ν) : Arena ν := ⟨a.slots.set i (some x)⟩

def erase (a : Arena ν) (i : Nat) : Arena ν := ⟨a.slots.set i none⟩

def live (a : Arena ν) : List ν := a.slots.filterMap id

/-- Empties the slots whose node fails the test. -/
def keep (a : Arena ν) (p : ν → Bool) : Arena ν := ⟨a.slots.map (Option.filter p)⟩

@[simp] theorem get?_empty (i : Nat) : (empty : Arena ν).get? i = none := rfl

theorem get?_push (a : Arena ν) (x : ν) (i : Nat) :
    (a.push x).get? i = if i = a.size then some x else a.get? i := by
  by_cases h : i < a.slots.length
  · simp [get?, push, size, List.getElem?_append_left h, Nat.ne_of_lt h]
  · by_cases e : i = a.slots.length
    · simp [get?, push, size, e]
    · have past : (a.slots ++ [some x]).length ≤ i := by
        rw [List.length_append, List.length_singleton]
        omega
      rw [size, if_neg e, get?, get?, push, List.getElem?_eq_none past,
        List.getElem?_eq_none (Nat.le_of_not_lt h)]

theorem get?_put (a : Arena ν) (i : Nat) (x : ν) (j : Nat) :
    (a.put i x).get? j = if i = j ∧ i < a.size then some x else a.get? j := by
  simp only [get?, put, size, List.getElem?_set]
  by_cases e : i = j
  · subst e
    by_cases h : i < a.slots.length <;> simp [h]
  · simp [e]

theorem get?_erase (a : Arena ν) (i j : Nat) :
    (a.erase i).get? j = if i = j then none else a.get? j := by
  simp only [get?, erase, List.getElem?_set]
  by_cases e : i = j
  · subst e
    by_cases h : i < a.slots.length <;> simp [h]
  · simp [e]

theorem get?_keep (a : Arena ν) (p : ν → Bool) (i : Nat) :
    (a.keep p).get? i = (a.get? i).filter p := by
  simp only [get?, keep, List.getElem?_map]
  cases a.slots[i]? with
  | none => rfl
  | some x => cases x <;> rfl

theorem mem_live {a : Arena ν} {x : ν} : x ∈ a.live ↔ ∃ i, a.get? i = some x := by
  rw [live, List.mem_filterMap]
  constructor
  · rintro ⟨o, ho, hx⟩
    obtain ⟨i, hi⟩ := List.mem_iff_getElem?.1 ho
    exact ⟨i, by rw [get?, hi]; exact hx⟩
  · rintro ⟨i, hi⟩
    rw [get?] at hi
    cases h : a.slots[i]? with
    | none => rw [h] at hi; cases hi
    | some o =>
      rw [h] at hi
      exact ⟨o, List.mem_iff_getElem?.2 ⟨i, h⟩, hi⟩

theorem live_keep (a : Arena ν) (p : ν → Bool) : (a.keep p).live = a.live.filter p := by
  show (a.slots.map (Option.filter p)).filterMap id = (a.slots.filterMap id).filter p
  rw [List.filterMap_map, List.filter_filterMap]
  rfl

theorem lt_size_of_get? {a : Arena ν} {i : Nat} {x : ν} (h : a.get? i = some x) : i < a.size := by
  simp only [get?, size] at *
  cases e : a.slots[i]? with
  | none => rw [e] at h; cases h
  | some o => exact (List.getElem?_eq_some_iff.1 e).1

end Arena

end TensorGraph
