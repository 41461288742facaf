import Mathlib.Data.List.Forall2
import Mathlib.Data.List.Nodup

/-!
# TensorGraph.Proofs.Lists

Lists where each element is listed once, and lists that are related element by element.

* `exists_partners`: a list has a related one if each of its elements has a partner.
* `nodup_eraseDups`, `eraseDups_cons_new`: `eraseDups` keeps each element where it is met first.
* `filter_key`, `find?_key_iff`: looking for a key that at most one element has.
-/

namespace TensorGraph

section

variable {β γ : Type} {r : β → γ → Prop} {xs : List β} {ys : List γ}

/-- What is related to a list has a partner for each of its elements. -/
theorem exists_left (h : List.Forall₂ r xs ys) {y : γ} (hy : y ∈ ys) : ∃ x ∈ xs, r x y := by
  induction h with
  | nil => cases hy
  | @cons x z xs zs first _ ih =>
    rcases List.mem_cons.1 hy with rfl | hy
    · exact ⟨x, List.mem_cons_self, first⟩
    · obtain ⟨w, hw, related⟩ := ih hy
      exact ⟨w, List.mem_cons_of_mem x hw, related⟩

theorem exists_right (h : List.Forall₂ r xs ys) {x : β} (hx : x ∈ xs) : ∃ y ∈ ys, r x y :=
  exists_left h.flip hx

theorem exists_partners : (∃ ys, List.Forall₂ r xs ys) ↔ ∀ x ∈ xs, ∃ y, r x y := by
  constructor
  · rintro ⟨ys, h⟩ x hx
    obtain ⟨y, _, related⟩ := exists_right h hx
    exact ⟨y, related⟩
  · intro h
    induction xs with
    | nil => exact ⟨[], .nil⟩
    | cons x xs ih =>
      obtain ⟨y, first⟩ := h x List.mem_cons_self
      obtain ⟨ys, rest⟩ := ih fun z hz => h z (List.mem_cons_of_mem x hz)
      exact ⟨y :: ys, .cons first rest⟩

end

section

variable {γ : Type} [BEq γ] [LawfulBEq γ] {x : γ} {xs seen : List γ}

omit [LawfulBEq γ] in
theorem removeAll_nil (xs : List γ) : xs.removeAll [] = xs := List.filter_true xs

theorem removeAll_cons_old (met : x ∈ seen) : (x :: xs).removeAll seen = xs.removeAll seen :=
  List.filter_cons_of_neg (by simpa using met)

theorem eraseDups_cons_new (new : x ∉ seen) :
    ((x :: xs).removeAll seen).eraseDups = x :: (xs.removeAll (x :: seen)).eraseDups := by
  have later (y : γ) : (!(x :: seen).elem y) = (!(y == x) && !seen.elem y) := by
    rw [Bool.eq_iff_iff]
    simp
  rw [List.removeAll, List.filter_cons_of_pos (by simpa using new), List.eraseDups_cons,
    List.removeAll]
  simp only [later, List.filter_filter]

theorem nodup_eraseDups (xs : List γ) : xs.eraseDups.Nodup := by
  have apart (seen : List γ) : (xs.removeAll seen).eraseDups.Nodup := by
    induction xs generalizing seen with
    | nil => exact List.nodup_nil
    | cons x xs ih =>
      by_cases met : x ∈ seen
      · rw [removeAll_cons_old met]
        exact ih seen
      · rw [eraseDups_cons_new met]
        refine List.nodup_cons.2 ⟨fun again => ?_, ih (x :: seen)⟩
        have others := (List.mem_filter.1 (List.mem_eraseDups.1 again)).2
        simp at others
  exact removeAll_nil xs ▸ apart []

theorem eraseDups_of_nodup (h : xs.Nodup) : xs.eraseDups = xs := by
  induction xs with
  | nil => rfl
  | cons x xs ih =>
    obtain ⟨new, h⟩ := List.nodup_cons.1 h
    have others : xs.filter (fun y => !y == x) = xs :=
      List.filter_eq_self.2 fun y hy => by simpa using fun e : y = x => new (e ▸ hy)
    rw [List.eraseDups_cons, others, ih h]

end

section

variable {β γ : Type} [DecidableEq γ] {key : β → γ} {xs : List β}

/-- The one element of a list with a key, where no two elements share a key. -/
theorem filter_key (nodup : (xs.map key).Nodup) {x : β} (mem : x ∈ xs) :
    xs.filter (fun y => key y = key x) = [x] := by
  induction xs with
  | nil => cases mem
  | cons y ys ih =>
    obtain ⟨other, nodup⟩ := List.nodup_cons.1 nodup
    rcases List.mem_cons.1 mem with rfl | mem
    · have others : ys.filter (fun y => key y = key x) = [] := by
        refine List.filter_eq_nil_iff.2 fun y hy same => ?_
        exact other (of_decide_eq_true same ▸ List.mem_map_of_mem hy)
      rw [List.filter_cons_of_pos (by simp), others]
    · have ne : key y ≠ key x := fun same => other (same ▸ List.mem_map_of_mem mem)
      rw [List.filter_cons_of_neg (by simpa using ne)]
      exact ih nodup mem

theorem find?_key_iff (nodup : (xs.map key).Nodup) {k : γ} {x : β} :
    xs.find? (fun y => key y = k) = some x ↔ x ∈ xs ∧ key x = k := by
  constructor
  · intro found
    exact ⟨List.mem_of_find?_eq_some found, by simpa using List.find?_some found⟩
  · rintro ⟨mem, rfl⟩
    rw [← List.head?_filter, filter_key nodup mem]
    rfl

end

end TensorGraph
