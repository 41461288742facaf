import Mathlib.Algebra.Order.BigOperators.Group.List
import Mathlib.Algebra.Order.Group.Nat
import TensorGraph.Lowering.Device
import TensorGraph.Proofs.Graph.Order
import TensorGraph.Proofs.Graph.Sound
import TensorGraph.Proofs.Lists

/-!
# TensorGraph.Proofs.Lowering.Layout

Where variables lie in the buffers of a device.

* `Layout.fresh`: the variables of a buffer, each where it is met first.
* `Layout.Tiles`: spans that leave no gap and do not overlap.
* `Layout.startIn`: where a variable starts if they lie back to back.
* `allocate_eq`, `pack_eq`: both buffers are laid out in that way.
* `startOf_constant`, `startOf_data`: the starts that kernels get, none of which leaves its word.
-/

namespace TensorGraph

variable {α β : Type}

namespace Layout

/-- The ids among `vs` that `keep` takes, each where it is met first, without those in `seen`. -/
def fresh (keep : VariableId → Bool) : List VariableId → List VariableId → List VariableId
  | _, [] => []
  | seen, v :: rest =>
    if keep v && !seen.contains v then v :: fresh keep (v :: seen) rest
    else fresh keep seen rest

variable {keep : VariableId → Bool}

theorem fresh_cons_new {seen rest : List VariableId} {v : VariableId} (kept : keep v = true)
    (new : seen.contains v = false) :
    fresh keep seen (v :: rest) = v :: fresh keep (v :: seen) rest := by
  rw [fresh, kept, new]
  rfl

theorem fresh_cons_old {seen rest : List VariableId} {v : VariableId}
    (old : keep v = false ∨ seen.contains v = true) :
    fresh keep seen (v :: rest) = fresh keep seen rest := by
  rw [fresh]
  rcases old with skipped | met
  · rw [skipped]
    rfl
  · rw [met, Bool.not_true, Bool.and_false]
    rfl

theorem mem_fresh {seen vs : List VariableId} {w : VariableId} :
    w ∈ fresh keep seen vs ↔ w ∈ vs ∧ keep w = true ∧ w ∉ seen := by
  induction vs generalizing seen with
  | nil => simp [fresh]
  | cons v rest ih =>
    rw [fresh]
    split
    · next kept =>
      simp only [Bool.and_eq_true, Bool.not_eq_true', List.contains_eq_mem,
        decide_eq_false_iff_not] at kept
      simp only [List.mem_cons, ih, not_or]
      constructor
      · rintro (rfl | ⟨mem, k, _, new⟩)
        · exact ⟨.inl rfl, kept⟩
        · exact ⟨.inr mem, k, new⟩
      · rintro ⟨rfl | mem, k, new⟩
        · exact .inl rfl
        · by_cases e : w = v
          · exact .inl e
          · exact .inr ⟨mem, k, e, new⟩
    · next skipped =>
      simp only [Bool.and_eq_true, Bool.not_eq_true', List.contains_eq_mem,
        decide_eq_false_iff_not] at skipped
      rw [ih, List.mem_cons]
      constructor
      · rintro ⟨mem, k, new⟩
        exact ⟨.inr mem, k, new⟩
      · rintro ⟨rfl | mem, k, new⟩
        · exact absurd ⟨k, new⟩ skipped
        · exact ⟨mem, k, new⟩

theorem fresh_nodup (keep : VariableId → Bool) (seen vs : List VariableId) :
    (fresh keep seen vs).Nodup := by
  induction vs generalizing seen with
  | nil => exact List.nodup_nil
  | cons v rest ih =>
    rw [fresh]
    split
    · refine List.nodup_cons.2 ⟨fun mem => ?_, ih (v :: seen)⟩
      exact (mem_fresh.1 mem).2.2 List.mem_cons_self
    · exact ih seen

theorem fresh_eq (keep : VariableId → Bool) (seen vs : List VariableId) :
    fresh keep seen vs = ((vs.filter keep).removeAll seen).eraseDups := by
  induction vs generalizing seen with
  | nil => rfl
  | cons v rest ih =>
    by_cases kept : keep v = true
    · rw [List.filter_cons_of_pos kept]
      by_cases met : v ∈ seen
      · rw [fresh_cons_old (.inr (List.contains_iff_mem.2 met)), ih, removeAll_cons_old met]
      · rw [fresh_cons_new kept (by simpa using met), ih, eraseDups_cons_new met]
    · rw [List.filter_cons_of_neg kept,
        fresh_cons_old (.inl (Bool.eq_false_of_not_eq_true kept)), ih]

/-- The spans of a list lie back to back, from `start` to `stop`. -/
def Tiles (offset length : β → Nat) : Nat → List β → Nat → Prop
  | start, [], stop => start = stop
  | start, x :: xs, stop => offset x = start ∧ Tiles offset length (start + length x) xs stop

theorem Tiles.concat {offset length : β → Nat} {start stop : Nat} {xs : List β} {x : β}
    (h : Tiles offset length start xs stop) (next : offset x = stop) :
    Tiles offset length start (xs ++ [x]) (stop + length x) := by
  induction xs generalizing start with
  | nil =>
    cases h
    exact ⟨next, rfl⟩
  | cons y ys ih => exact ⟨h.1, ih h.2⟩

/-- Where `v` starts if the ids of a list lie back to back. -/
def startIn (size : VariableId → Nat) : List VariableId → VariableId → Nat
  | [], _ => 0
  | u :: us, v => if u = v then 0 else size u + startIn size us v

variable {size : VariableId → Nat} {vs : List VariableId} {v w : VariableId}

theorem startIn_add_le (size : VariableId → Nat) (hv : v ∈ vs) :
    startIn size vs v + size v ≤ (vs.map size).sum := by
  induction vs with
  | nil => cases hv
  | cons u us ih =>
    rw [startIn, List.map_cons, List.sum_cons]
    split
    · next e =>
      subst e
      omega
    · next ne =>
      have := ih ((List.mem_cons.1 hv).resolve_left (Ne.symm ne))
      omega

theorem startIn_apart (hv : v ∈ vs) (hw : w ∈ vs) (ne : v ≠ w) :
    startIn size vs v + size v ≤ startIn size vs w ∨
      startIn size vs w + size w ≤ startIn size vs v := by
  induction vs with
  | nil => cases hv
  | cons u us ih =>
    rw [startIn, startIn]
    by_cases ev : u = v
    · subst ev
      rw [if_pos rfl, if_neg ne]
      omega
    · by_cases ew : u = w
      · subst ew
        rw [if_neg ev, if_pos rfl]
        omega
      · rw [if_neg ev, if_neg ew]
        have := ih ((List.mem_cons.1 hv).resolve_left (Ne.symm ev))
          ((List.mem_cons.1 hw).resolve_left (Ne.symm ew))
        omega

theorem startIn_cons_self : startIn size (v :: vs) v = 0 := by
  rw [startIn, if_pos rfl]

theorem startIn_cons_fresh {seen : List VariableId} (hw : w ∈ fresh keep (v :: seen) vs) :
    startIn size (v :: fresh keep (v :: seen) vs) w =
      size v + startIn size (fresh keep (v :: seen) vs) w := by
  have ne : v ≠ w := fun e => (mem_fresh.1 hw).2.2 (e ▸ List.mem_cons_self)
  rw [startIn, if_neg ne]

/-- What lies at the start of an id is its own part. -/
theorem segment_startIn {f : VariableId → List β} (length : ∀ u ∈ vs, (f u).length = size u)
    (hv : v ∈ vs) : ((vs.flatMap f).drop (startIn size vs v)).take (size v) = f v := by
  induction vs with
  | nil => cases hv
  | cons u us ih =>
    have first := length u List.mem_cons_self
    rw [startIn, List.flatMap_cons]
    split
    · next e =>
      subst e
      rw [List.drop_zero, ← first, List.take_left]
    · next ne =>
      rw [← first, ← List.drop_drop, List.drop_left]
      exact ih (fun w hw => length w (List.mem_cons_of_mem u hw))
        ((List.mem_cons.1 hv).resolve_left (Ne.symm ne))

theorem length_flatMap {f : VariableId → List β} (length : ∀ u ∈ vs, (f u).length = size u) :
    (vs.flatMap f).length = (vs.map size).sum := by
  rw [List.length_flatMap]
  exact congrArg List.sum (List.map_congr_left length)

theorem find?_map {f : VariableId → β} {key : β → VariableId} (h : ∀ u, key (f u) = u) :
    (vs.map f).find? (fun x => key x = v) = if v ∈ vs then some (f v) else none := by
  induction vs with
  | nil => rfl
  | cons u us ih =>
    rw [List.map_cons, List.find?_cons, h, ih]
    by_cases e : u = v
    · subst e; simp
    · simp [e, Ne.symm e]

end Layout

open Layout

/-- Number of elements of a variable. -/
def Graph.elements (g : Graph α) (v : VariableId) : Nat := (g.shape v).size

theorem Graph.elements_of {g : Graph α} {v : VariableId} {x : Variable α}
    (hx : g.variableAt? v = some x) : g.elements v = x.size := by
  simp only [elements, shape, hx, Variable.size]

theorem Graph.isConstant_of {g : Graph α} {v : VariableId} {x : Variable α}
    (hx : g.variableAt? v = some x) : g.isConstant v = x.isConstant := by
  simp only [isConstant, payload?, hx]
  rfl

/-- Whether a variable is live and no constant. -/
def Graph.isData (g : Graph α) (v : VariableId) : Bool :=
  (g.variableAt? v).any fun x => !x.isConstant

theorem Graph.isData_iff {g : Graph α} {v : VariableId} :
    g.isData v = true ↔ g.outline.Live v ∧ g.payload? v = none := by
  rw [live_iff, isData]
  cases hx : g.variableAt? v with
  | none => simp
  | some x => simp [payload?, hx, Variable.isConstant]

namespace Device

/-- The variables of the data buffer in the order of their spans. -/
def dataIds (g : Graph α) (order : List OperatorId) : List VariableId :=
  fresh g.isData [] (g.inputs ++ order.flatMap (resultsOf g))

/-- Where a variable lies if the spans from `start` on belong to `ids`. -/
def spanIn (g : Graph α) (start : Nat) (ids : List VariableId) (v : VariableId) : Allocation :=
  ⟨v, start + startIn g.elements ids v, g.elements v⟩

theorem allocateNew_eq (g : Graph α) (seen : List VariableId) (start : Nat)
    (vs : List VariableId) : allocateNew g seen start vs =
      (fresh g.isData seen vs).map (spanIn g start (fresh g.isData seen vs)) := by
  induction vs generalizing seen start with
  | nil => rfl
  | cons v rest ih =>
    rw [allocateNew]
    cases hx : g.variableAt? v with
    | none =>
      have dead : g.isData v = false := by rw [Graph.isData, hx]; rfl
      rw [fresh_cons_old (.inl dead)]
      exact ih seen start
    | some x =>
      have data : g.isData v = !x.isConstant := by rw [Graph.isData, hx]; rfl
      dsimp only
      split
      · next skip =>
        have old : g.isData v = false ∨ seen.contains v = true := by
          simpa [data] using skip
        rw [fresh_cons_old old]
        exact ih seen start
      · next new =>
        obtain ⟨varies, unseen⟩ := Bool.or_eq_false_iff.1 (Bool.eq_false_of_not_eq_true new)
        rw [fresh_cons_new (data.trans (congrArg _ varies)) unseen, ih, List.map_cons]
        congr 1
        · rw [spanIn, startIn_cons_self, Graph.elements_of hx, Nat.add_zero]
        · refine List.map_congr_left fun w hw => ?_
          rw [spanIn, spanIn, startIn_cons_fresh hw, Graph.elements_of hx, Nat.add_assoc]

theorem allocate_eq (g : Graph α) (order : List OperatorId) :
    allocate g order = (dataIds g order).map (spanIn g 0 (dataIds g order)) :=
  allocateNew_eq g [] 0 _

theorem dataElements_eq (g : Graph α) (order : List OperatorId) :
    dataElements (allocate g order) = ((dataIds g order).map g.elements).sum := by
  rw [dataElements, allocate_eq, List.map_map]
  rfl

theorem find?_allocate {g : Graph α} {order : List OperatorId} {v : VariableId} :
    (allocate g order).find? (·.id = v) =
      if v ∈ dataIds g order then some (spanIn g 0 (dataIds g order) v) else none := by
  rw [allocate_eq]
  exact find?_map fun _ => rfl

end Device

namespace WeightBuffer

/-- The constants of the weight buffer in the order of their entries. -/
def constantIds (g : Graph α) (order : List OperatorId) : List VariableId :=
  fresh g.isConstant [] (order.flatMap (operandsOf g) ++ g.outputs)

/-- The entry of a constant if the entries from element `start` on belong to `ids`. -/
def entryIn (g : Graph α) (start : Nat) (ids : List VariableId) (v : VariableId) : WeightEntry :=
  ⟨v, 4 * (start + startIn g.elements ids v), 4 * g.elements v⟩

/-- The elements of a constant. -/
def elementsOf (g : Graph α) (v : VariableId) : List α := ((g.payload? v).getD #[]).toList

theorem elementsOf_length {g : Graph α} (h : g.Linked) {v : VariableId}
    (constant : g.isConstant v = true) : (elementsOf g v).length = g.elements v := by
  obtain ⟨x, hx⟩ := Option.isSome_iff_exists.1 constant
  have size := Graph.payload?_size h ((Graph.payload?_eq g v) ▸ hx)
  rw [elementsOf, hx, Option.getD_some, Array.length_toList, size, Graph.elements, Graph.shape_eq]

theorem appendNew_eq {g : Graph α} (h : g.Linked) (b : WeightBuffer α)
    (seen vs : List VariableId) : appendNew g b seen vs =
      ⟨b.entries ++ (fresh g.isConstant seen vs).map
          (entryIn g b.data.length (fresh g.isConstant seen vs)),
        b.data ++ (fresh g.isConstant seen vs).flatMap (elementsOf g)⟩ := by
  induction vs generalizing b seen with
  | nil =>
    rw [appendNew, fresh, List.map_nil, List.flatMap_nil, List.append_nil, List.append_nil]
  | cons v rest ih =>
    rw [appendNew]
    cases payload : g.payload? v with
    | none =>
      have other : g.isConstant v = false := by rw [Graph.isConstant, payload]; rfl
      rw [fresh_cons_old (.inl other)]
      exact ih b seen
    | some x =>
      have constant : g.isConstant v = true := by rw [Graph.isConstant, payload]; rfl
      dsimp only
      split
      · next met =>
        rw [fresh_cons_old (.inr met)]
        exact ih b seen
      · next new =>
        have values : elementsOf g v = x.toList := by rw [elementsOf, payload]; rfl
        have size : x.size = g.elements v := by
          rw [← elementsOf_length h constant, values, Array.length_toList]
        have later : ∀ w ∈ fresh g.isConstant (v :: seen) rest,
            entryIn g (b.append v x).data.length (fresh g.isConstant (v :: seen) rest) w =
              entryIn g b.data.length (v :: fresh g.isConstant (v :: seen) rest) w := by
          intro w hw
          rw [entryIn, entryIn, startIn_cons_fresh hw, append, List.length_append,
            Array.length_toList, size, Nat.add_assoc]
        have first : entryIn g b.data.length (v :: fresh g.isConstant (v :: seen) rest) v =
            ⟨v, 4 * b.data.length, 4 * x.size⟩ := by
          rw [entryIn, startIn_cons_self, size, Nat.add_zero]
        rw [fresh_cons_new constant (Bool.eq_false_of_not_eq_true new), ih, List.map_cons, first,
          List.map_congr_left later, List.flatMap_cons, values]
        simp only [append, List.append_assoc, List.singleton_append]

theorem pack_eq {g : Graph α} (h : g.Linked) (order : List OperatorId) :
    pack g order = ⟨(constantIds g order).map (entryIn g 0 (constantIds g order)),
      (constantIds g order).flatMap (elementsOf g)⟩ := by
  rw [pack, appendNew_eq h]
  rfl

theorem entry?_pack {g : Graph α} (h : g.Linked) {order : List OperatorId} {v : VariableId} :
    entry? (pack g order) v =
      if v ∈ constantIds g order then some (entryIn g 0 (constantIds g order) v) else none := by
  unfold entry?
  rw [pack_eq h]
  exact find?_map fun _ => rfl

end WeightBuffer

namespace Device

open TensorGraph.Graph WeightBuffer

variable {g : Graph α} {order : List OperatorId}

theorem mem_constantIds {v : VariableId} (constant : g.isConstant v = true)
    (used : (∃ o ∈ order, g.outline.Reads o v) ∨ v ∈ g.outputs) : v ∈ constantIds g order := by
  refine mem_fresh.2 ⟨List.mem_append.2 ?_, constant, List.not_mem_nil⟩
  refine used.imp_left fun ⟨o, mem, op, ho, hv⟩ => List.mem_flatMap.2 ⟨o, mem, ?_⟩
  have ho' : g.operatorAt? o = some op := ho
  simp only [operandsOf, ho']
  exact hv

theorem mem_dataIds {v : VariableId} (live : g.outline.Live v) (varies : g.payload? v = none)
    (source : v ∈ g.inputs ∨ ∃ o ∈ order, g.outline.Writes o v) : v ∈ dataIds g order := by
  refine mem_fresh.2 ⟨List.mem_append.2 ?_, isData_iff.2 ⟨live, varies⟩, List.not_mem_nil⟩
  refine source.imp_right fun ⟨o, mem, op, ho, hv⟩ => List.mem_flatMap.2 ⟨o, mem, ?_⟩
  have ho' : g.operatorAt? o = some op := ho
  simp only [resultsOf, ho']
  exact hv

/-- Variables met once each do not take more room than a list of records that has all of them. -/
theorem sum_elements_le {ids : List VariableId} (nodup : ids.Nodup) {xs : List (Variable α)}
    (h : g.Linked) (all : ∀ v ∈ ids, ∃ x ∈ xs, g.variableAt? v = some x) :
    (ids.map g.elements).sum ≤ (xs.map Variable.size).sum := by
  have found : ∀ ids : List VariableId, (∀ v ∈ ids, ∃ x ∈ xs, g.variableAt? v = some x) →
      ((ids.filterMap g.variableAt?).map Variable.size = ids.map g.elements) ∧
        ids.filterMap g.variableAt? ⊆ xs := by
    intro ids all
    induction ids with
    | nil => exact ⟨rfl, List.nil_subset xs⟩
    | cons v ids ih =>
      obtain ⟨x, hx, at_v⟩ := all v List.mem_cons_self
      obtain ⟨sizes, sub⟩ := ih fun w hw => all w (List.mem_cons_of_mem v hw)
      rw [List.filterMap_cons_some at_v, List.map_cons, List.map_cons, sizes, elements_of at_v]
      exact ⟨rfl, List.cons_subset.2 ⟨hx, sub⟩⟩
  obtain ⟨sizes, sub⟩ := found ids all
  have distinct : (ids.filterMap g.variableAt?).Nodup := by
    refine nodup.filterMap fun v w x hv hw => ?_
    rw [← h.variable_id hv, ← h.variable_id hw]
  obtain ⟨ys, perm, sublist⟩ := List.subperm_of_subset distinct sub
  rw [← sizes, ← (perm.map Variable.size).sum_eq]
  exact (sublist.map Variable.size).sum_le_sum fun _ _ => Nat.zero_le _

theorem checkBuffer_ok_iff {name : String} {xs : List (Variable α)} :
    checkBuffer name (elementCount xs) = .ok ⟨⟩ ↔ (xs.map Variable.size).sum < 2 ^ 32 := by
  have count : elementCount xs = min (xs.map Variable.size).sum (2 ^ 64 - 1) := rfl
  have limit : Nat.pow 2 32 = 2 ^ 32 := rfl
  rw [checkBuffer, count, limit]
  split
  · next many => exact ⟨(nomatch ·), fun few => by omega⟩
  · next few => exact ⟨fun _ => by omega, fun _ => rfl⟩

theorem checkAddressable_ok_iff : checkAddressable g = .ok ⟨⟩ ↔
    ((g.liveVariables.filter Variable.isConstant).map Variable.size).sum < 2 ^ 32 ∧
      ((g.liveVariables.filter fun x => !x.isConstant).map Variable.size).sum < 2 ^ 32 := by
  rw [checkAddressable, List.partition_eq_filter_filter]
  exact except_check_bind_ok_iff.trans (and_congr checkBuffer_ok_iff checkBuffer_ok_iff)

theorem data_lt (h : g.Linked) (addressed : checkAddressable g = .ok ⟨⟩)
    (order : List OperatorId) :
    ((dataIds g order).map g.elements).sum < 2 ^ 32 := by
  refine Nat.lt_of_le_of_lt (sum_elements_le (fresh_nodup _ _ _) h fun v hv => ?_)
    (checkAddressable_ok_iff.1 addressed).2
  obtain ⟨_, data, _⟩ := mem_fresh.1 hv
  obtain ⟨x, hx, varies⟩ := (Option.any_eq_true _ _).1 data
  exact ⟨x, List.mem_filter.2 ⟨(mem_liveVariables h).2 (h.variable_id hx ▸ hx), varies⟩, hx⟩

theorem constants_lt (h : g.Linked) (addressed : checkAddressable g = .ok ⟨⟩)
    (order : List OperatorId) :
    ((constantIds g order).map g.elements).sum < 2 ^ 32 := by
  refine Nat.lt_of_le_of_lt (sum_elements_le (fresh_nodup _ _ _) h fun v hv => ?_)
    (checkAddressable_ok_iff.1 addressed).1
  obtain ⟨_, constant, _⟩ := mem_fresh.1 hv
  obtain ⟨d, hd⟩ := Option.isSome_iff_exists.1 constant
  obtain ⟨x, hx, _⟩ := Option.bind_eq_some_iff.1 hd
  rw [isConstant_of hx] at constant
  exact ⟨x, List.mem_filter.2 ⟨(mem_liveVariables h).2 (h.variable_id hx ▸ hx), constant⟩, hx⟩

theorem word_of_lt {n : Nat} (h : n < 2 ^ 32) : word n = n := Nat.mod_eq_of_lt h

/-- The start that a kernel gets for a constant is that of its entry. -/
theorem startOf_constant (h : g.Linked) (addressed : checkAddressable g = .ok ⟨⟩)
    {spans : List Allocation} {v : VariableId} (hv : v ∈ constantIds g order) :
    word (startOf (pack g order) spans v) = startIn g.elements (constantIds g order) v := by
  have start : startOf (pack g order) spans v =
      startIn g.elements (constantIds g order) v := by
    rw [startOf, entry?_pack h, if_pos hv]
    show 4 * (0 + _) / 4 = _
    omega
  have total := constants_lt h addressed order
  have inside := startIn_add_le g.elements hv
  rw [start, word_of_lt (by omega)]

/-- The start that a kernel gets for another variable is that of its span. -/
theorem startOf_data (h : g.Linked) (addressed : checkAddressable g = .ok ⟨⟩) {v : VariableId}
    (hv : v ∈ dataIds g order) :
    word (startOf (pack g order) (allocate g order) v) =
      startIn g.elements (dataIds g order) v := by
  have varies : v ∉ constantIds g order := by
    intro hc
    obtain ⟨_, data, _⟩ := mem_fresh.1 hv
    obtain ⟨_, constant, _⟩ := mem_fresh.1 hc
    rw [isConstant, (isData_iff.1 data).2] at constant
    cases constant
  have start : startOf (pack g order) (allocate g order) v =
      startIn g.elements (dataIds g order) v := by
    rw [startOf, entry?_pack h, if_neg varies, find?_allocate, if_pos hv]
    exact Nat.zero_add _
  have total := data_lt h addressed order
  have inside := startIn_add_le g.elements hv
  rw [start, word_of_lt (by omega)]

end Device

end TensorGraph
