import TensorGraph.Guarded.Basic
import TensorGraph.Proofs.Edit.Run
import TensorGraph.Proofs.Evaluation.Grid

/-!
# TensorGraph.Proofs.Guarded.Basic

Guarded computations beside exact ones.

* `Agrees`: a guarded computation that gives what another one gives, unless a number on the way is
  too large.
* `Shape.Countable`: shapes whose elements a word can count.
* `Follows`: a guarded computation that gives whatever a partial one gives.
* `fill_follows`: a buffer that is written place by place.
* `loop_total`: a loop that keeps an invariant.
* `Run.Agrees`: the same as `Agrees` for computations on a state.
-/

namespace TensorGraph

open Kernel (Buffer)

namespace Guarded

variable {α β γ σ π : Type} {free : Prop}

/-! ## Steps -/

@[simp] theorem report_ok (x : β) : report (.ok x) = .ok x := rfl

@[simp] theorem report_eq_ok {r : Except GraphError β} {x : β} : report r = .ok x ↔ r = .ok x := by
  cases r <;> simp [report]

theorem report_bind (r : Except GraphError β) (k : β → Except GraphError γ) :
    report (r >>= k) = report r >>= fun x => report (k x) := by
  cases r <;> rfl

theorem mapM_report {f : β → Except GraphError γ} {k : β → Guarded γ} {xs : List β}
    (same : ∀ x ∈ xs, k x = report (f x)) : xs.mapM k = report (xs.mapM f) := by
  induction xs with
  | nil => rfl
  | cons x xs ih =>
    rw [List.mapM_cons, List.mapM_cons, report_bind, same x List.mem_cons_self,
      ih fun y hy => same y (List.mem_cons_of_mem x hy)]
    refine congrArg (report (f x) >>= ·) (funext fun y => ?_)
    rw [report_bind]
    rfl

theorem foldlM_report {f : σ → β → Except GraphError σ} {k : σ → β → Guarded σ} {xs : List β}
    (same : ∀ s, ∀ x ∈ xs, k s x = report (f s x)) (start : σ) :
    xs.foldlM k start = report (xs.foldlM f start) := by
  induction xs generalizing start with
  | nil => rfl
  | cons x xs ih =>
    rw [List.foldlM_cons, List.foldlM_cons, report_bind, same start x List.mem_cons_self]
    exact congrArg (report (f start x) >>= ·) (funext fun s =>
      ih (fun s y hy => same s y (List.mem_cons_of_mem x hy)) s)

theorem read_ok {x : Buffer α} {i : Nat} {v : α} (h : x[i]? = some v) : read x i = .ok v := by
  rw [read, h, demand]

theorem entry_ok {xs : List β} {i : Nat} {x : β} (h : xs[i]? = some x) : entry xs i = .ok x := by
  rw [entry, h, demand]

theorem write_ok {x : Buffer α} {i : Nat} (h : i < x.size) (v : α) :
    write x i v = .ok (x.setIfInBounds i v) := if_pos h

theorem slice_ok {x : Buffer α} {low high : Nat} (order : low ≤ high) (bound : high ≤ x.size) :
    slice x low high = .ok (x.extract low high) := if_pos ⟨order, bound⟩

theorem minus_ok {a b : Nat} (h : b ≤ a) : minus a b = .ok (a - b) := if_pos h

theorem quotient_ok (a : Nat) {b : Nat} (h : b ≠ 0) : quotient a b = .ok (a / b) := if_neg h

theorem remainder_ok (a : Nat) {b : Nat} (h : b ≠ 0) : remainder a b = .ok (a % b) := if_neg h

/-! ## Agreement -/

/-- What `r` gives, `g` gives too, or it ends where a number is too large. It does not end there
if `free` holds. -/
def Agrees (free : Prop) (g r : Guarded β) : Prop :=
  g = r ∨ ¬free ∧ g = .error (.fault .overflow)

namespace Agrees

variable {g r : Guarded β} {x : β}

theorem refl (g : Guarded β) : Agrees free g g := .inl rfl

theorem of_eq (h : g = r) : Agrees free g r := .inl h

theorem eq (h : Agrees free g r) (fits : free) : g = r := h.resolve_right fun big => big.1 fits

theorem mono {free' : Prop} (h : Agrees free' g r) (weaker : free → free') : Agrees free g r :=
  h.imp_right fun big => ⟨mt weaker big.1, big.2⟩

theorem of_ok (h : Agrees free g r) (run : g = .ok x) : r = .ok x := by
  rcases h with same | ⟨_, big⟩
  · rw [← same, run]
  · cases big.symm.trans run

theorem of_error (h : Agrees free g r) {e : GraphError} (run : g = .error (.error e)) :
    r = .error (.error e) := by
  rcases h with same | ⟨_, big⟩
  · rw [← same, run]
  · cases big.symm.trans run

/-- Where the other computation has no faults, only numbers are too large. -/
theorem overflow {m : Except GraphError β} (h : Agrees free g (report m)) {f : Fault}
    (run : g = .error (.fault f)) : f = .overflow ∧ ¬free := by
  rcases h with same | ⟨big, stops⟩
  · cases m <;> cases same.symm.trans run
  · cases stops.symm.trans run
    exact ⟨rfl, big⟩

theorem trans {t : Guarded β} (h : Agrees free g r) (h' : Agrees free r t) : Agrees free g t := by
  rcases h with rfl | big
  · exact h'
  · exact .inr big

theorem bind {k f : β → Guarded γ} (h : Agrees free g r)
    (next : ∀ x, r = .ok x → Agrees free (k x) (f x)) : Agrees free (g >>= k) (r >>= f) := by
  rcases h with rfl | ⟨big, rfl⟩
  · cases g with
    | ok x => exact next x rfl
    | error stop => exact .refl _
  · exact .inr ⟨big, rfl⟩

/-- A step that the other computation does not take. -/
theorem step {k : β → Guarded γ} {t : Guarded γ} (h : Agrees free g (.ok x))
    (next : Agrees free (k x) t) : Agrees free (g >>= k) t := by
  rcases h with rfl | ⟨big, rfl⟩
  · exact next
  · exact .inr ⟨big, rfl⟩

theorem stop {k : β → Guarded γ} {s : Stop} (h : Agrees free g (.error s)) :
    Agrees free (g >>= k) (.error s) := by
  rcases h with rfl | ⟨big, rfl⟩
  · exact .refl _
  · exact .inr ⟨big, rfl⟩

theorem map (h : Agrees free g r) (f : β → γ) : Agrees free (g.map f) (r.map f) := by
  rcases h with rfl | ⟨big, rfl⟩
  · exact .refl _
  · exact .inr ⟨big, rfl⟩

theorem foldlM {f k : σ → β → Guarded σ} {xs : List β}
    (same : ∀ s, ∀ x ∈ xs, Agrees free (f s x) (k s x)) (start : σ) :
    Agrees free (xs.foldlM f start) (xs.foldlM k start) := by
  induction xs generalizing start with
  | nil => exact .refl _
  | cons x xs ih =>
    rw [List.foldlM_cons, List.foldlM_cons]
    exact (same start x List.mem_cons_self).bind fun s _ =>
      ih (fun s y hy => same s y (List.mem_cons_of_mem x hy)) s

theorem forM {k : β → Guarded Unit} {xs : List β}
    (each : ∀ x ∈ xs, Agrees free (k x) (.ok ⟨⟩)) : Agrees free (xs.forM k) (.ok ⟨⟩) := by
  induction xs with
  | nil => exact .refl _
  | cons x xs ih =>
    exact (each x List.mem_cons_self).step (ih fun y hy => each y (List.mem_cons_of_mem x hy))

theorem foldlM_report {f : σ → β → Except GraphError σ} {k : σ → β → Guarded σ} {xs : List β}
    (same : ∀ s, ∀ x ∈ xs, Agrees free (k s x) (report (f s x))) (start : σ) :
    Agrees free (xs.foldlM k start) (report (xs.foldlM f start)) :=
  (Agrees.foldlM same start).trans (.of_eq (Guarded.foldlM_report (fun _ _ _ => rfl) start))

theorem loop {n : Nat} {f k : σ → Nat → Guarded σ}
    (same : ∀ s, ∀ i < n, Agrees free (f s i) (k s i)) (start : σ) :
    Agrees free (loop n start f) (Guarded.loop n start k) :=
  .foldlM (fun s i hi => same s i (List.mem_range.1 hi)) start

end Agrees

/-! ## Numbers that fit -/

theorem word_agrees {n : Nat} (fits : free → n < wordLimit) : Agrees free (word n) (.ok n) := by
  by_cases h : n < wordLimit
  · exact .of_eq (if_pos h)
  · exact .inr ⟨mt fits h, if_neg h⟩

theorem plus_agrees {a b : Nat} (fits : free → a + b < wordLimit) :
    Agrees free (plus a b) (.ok (a + b)) := word_agrees fits

theorem times_agrees {a b : Nat} (fits : free → a * b < wordLimit) :
    Agrees free (times a b) (.ok (a * b)) := word_agrees fits

theorem flat_agrees {block size offset : Nat} (fits : free → block * size + offset < wordLimit) :
    Agrees free (flat block size offset) (.ok (block * size + offset)) :=
  (times_agrees fun h => Nat.lt_of_le_of_lt (Nat.le_add_right _ offset) (fits h)).step
    (plus_agrees fits)

/-- The index of a block is no larger than that of an element in it. -/
theorem block_le (block offset : Nat) {size : Nat} (positive : 0 < size) :
    block ≤ block * size + offset :=
  Nat.le_add_right_of_le (Nat.le_mul_of_pos_right block positive)

theorem position_agrees {c d i y x : Nat} (hd : 0 < d)
    (fits : free → (i * c + y) * d + x < wordLimit) :
    Agrees free (position c d i y x) (.ok ((i * c + y) * d + x)) :=
  (flat_agrees fun h => Nat.lt_of_le_of_lt (block_le _ x hd) (fits h)).step (flat_agrees fits)

theorem cell_agrees {b c d i j y x : Nat} (hc : 0 < c) (hd : 0 < d)
    (fits : free → flatIndex b c d (i, j, y, x) < wordLimit) :
    Agrees free (cell b c d i j y x) (.ok (flatIndex b c d (i, j, y, x))) := by
  refine (flat_agrees fun h => ?_).step (position_agrees hd fits)
  have row := block_le ((i * b + j) * c + y) x hd
  have plane := block_le (i * b + j) y hc
  exact Nat.lt_of_le_of_lt (Nat.le_trans plane row) (fits h)

theorem zeros_agrees [Scalar α] {n : Nat} (fits : free → n < bufferLimit) :
    Agrees free (zeros n) (.ok (Array.replicate n (Scalar.zero : α))) := by
  by_cases h : n < bufferLimit
  · exact .of_eq (if_pos h)
  · exact .inr ⟨mt fits h, if_neg h⟩

theorem bufferLimit_lt : bufferLimit < wordLimit := by decide

/-- The numbers of the elements of a buffer fit a word. -/
theorem fits_word {n : Nat} (h : n < bufferLimit) : n < wordLimit :=
  Nat.lt_trans h bufferLimit_lt

end Guarded

/-- The products that it takes to count the elements of a shape fit a word. -/
def Shape.Countable (s : Shape) : Prop :=
  ∀ n ≤ s.length, Shape.size (s.take n) < Guarded.wordLimit

instance (s : Shape) : Decidable s.Countable := inferInstanceAs (Decidable (∀ n ≤ _, _))

/-- Without extents of zero the whole product is the largest. -/
theorem Shape.countable_iff {s : Shape} (positive : 0 ∉ s) :
    s.Countable ↔ s.size < Guarded.wordLimit := by
  constructor
  · intro h
    simpa using h s.length (Nat.le_refl _)
  · intro h n _
    exact Nat.lt_of_le_of_lt (size_take_le positive n) h

namespace Guarded

theorem count_from {s : Shape} {a : Nat}
    (fits : free → ∀ n ≤ s.length, a * Shape.size (s.take n) < wordLimit) :
    Agrees free (s.foldlM times a) (.ok (a * s.size)) := by
  induction s generalizing a with
  | nil => exact .of_eq (by rw [Shape.size_nil, Nat.mul_one]; rfl)
  | cons d s ih =>
    rw [List.foldlM_cons, Shape.size_cons, ← Nat.mul_assoc]
    refine (times_agrees fun h => ?_).step (ih fun h n hn => ?_)
    · simpa using fits h 1 (by simp)
    · simpa [Nat.mul_assoc] using fits h (n + 1) (by simpa using hn)

theorem count_agrees {s : Shape} (fits : free → s.Countable) :
    Agrees free (count s) (.ok s.size) := by
  have run : Agrees free (s.foldlM times 1) (.ok (1 * s.size)) := count_from fun h n hn => by
    rw [Nat.one_mul]
    exact fits h n hn
  rwa [Nat.one_mul] at run

/-! ## Following -/

/-- What `m` gives, `g` gives too, unless a number on the way is too large. -/
def Follows (free : Prop) (g : Guarded β) (m : Option β) : Prop :=
  ∀ x, m = some x → Agrees free g (.ok x)

namespace Follows

theorem pure (x : β) : Follows free (.ok x) (some x) := fun _ h =>
  .of_eq (congrArg Except.ok (Option.some.inj h))

theorem demand (f : Fault) (m : Option β) : Follows free (demand f m) m := by
  intro x h
  rw [h, Guarded.demand]
  exact .refl _

theorem read (x : Buffer α) (i : Nat) : Follows free (read x i) x[i]? := demand .index x[i]?

theorem of_agrees {m : Option β} {g r : Guarded β} (h : Agrees free g r) (rest : Follows free r m) :
    Follows free g m := fun x run => h.trans (rest x run)

theorem bind {m : Option β} {g : Guarded β} {f : β → Option γ} {k : β → Guarded γ}
    (h : Follows free g m) (next : ∀ x, Follows free (k x) (f x)) :
    Follows free (g >>= k) (m >>= f) := by
  intro y run
  obtain ⟨x, found, rest⟩ := Option.bind_eq_some_iff.1 run
  exact (h x found).step (next x y rest)

/-- A step that the other computation does not take. -/
theorem step {m : Option γ} {g : Guarded β} {x : β} {k : β → Guarded γ}
    (h : Agrees free g (.ok x)) (next : Follows free (k x) m) : Follows free (g >>= k) m :=
  fun y run => h.step (next y run)

/-- What is found is known before it is looked for. -/
theorem found {m : Option β} {g : Guarded γ} {f : β → Option γ}
    (h : ∀ x, m = some x → Follows free g (f x)) : Follows free g (m >>= f) := by
  intro y run
  obtain ⟨x, found, rest⟩ := Option.bind_eq_some_iff.1 run
  exact h x found y rest

theorem map {m : Option β} {g : Guarded β} (h : Follows free g m) (f : β → γ) :
    Follows free (g.map f) (m.map f) := by
  intro y run
  obtain ⟨x, found, rfl⟩ := Option.map_eq_some_iff.1 run
  exact (h x found).map f

theorem foldlM {f : σ → β → Option σ} {k : σ → β → Guarded σ} {xs : List β}
    (step : ∀ s, ∀ x ∈ xs, Follows free (k s x) (f s x)) (start : σ) :
    Follows free (xs.foldlM k start) (xs.foldlM f start) := by
  induction xs generalizing start with
  | nil => exact .pure start
  | cons x xs ih =>
    rw [List.foldlM_cons, List.foldlM_cons]
    exact .bind (step start x List.mem_cons_self) fun s =>
      ih (fun s y hy => step s y (List.mem_cons_of_mem x hy)) s

theorem mapM {f : β → Option γ} {k : β → Guarded γ} {xs : List β}
    (each : ∀ x ∈ xs, Follows free (k x) (f x)) : Follows free (xs.mapM k) (xs.mapM f) := by
  induction xs with
  | nil => exact .pure []
  | cons x xs ih =>
    rw [List.mapM_cons, List.mapM_cons]
    refine .bind (each x List.mem_cons_self) fun y => ?_
    exact .bind (ih fun z hz => each z (List.mem_cons_of_mem x hz)) fun ys => .pure (y :: ys)

end Follows

theorem collect_follows {positions : List π} {f : π → Option α} {k : π → Guarded α}
    (each : ∀ p ∈ positions, Follows free (k p) (f p)) :
    Follows free (collect positions k) (Kernel.tabulate positions f) :=
  (Follows.mapM each).map List.toArray

/-! ## Loops -/

theorem foldlM_flatMap {m : Type → Type} [Monad m] [LawfulMonad m] {f : β → List γ}
    {k : σ → γ → m σ} {xs : List β} (start : σ) :
    (xs.flatMap f).foldlM k start = xs.foldlM (fun s x => (f x).foldlM k s) start := by
  induction xs generalizing start with
  | nil => rfl
  | cons x xs ih =>
    rw [List.flatMap_cons, List.foldlM_append, List.foldlM_cons]
    exact congrArg _ (funext ih)

/-- A body that leaves the state alone. -/
theorem foldlM_idle (xs : List β) (s : σ) :
    xs.foldlM (fun s _ => (.ok s : Guarded σ)) s = .ok s := by
  induction xs with
  | nil => rfl
  | cons x xs ih => exact ih

theorem loop_pairs {a b : Nat} (body : σ → Nat × Nat → Guarded σ) (start : σ) :
    ((List.range a).flatMap fun i => (List.range b).map fun j => (i, j)).foldlM body start =
      loop a start fun s i => loop b s fun s j => body s (i, j) := by
  simp only [foldlM_flatMap, List.foldlM_map]
  rfl

/-- A loop over a grid is four loops, one in the other. -/
theorem loop_grid4 {a b c d : Nat} (body : σ → Nat × Nat × Nat × Nat → Guarded σ) (start : σ) :
    (grid4 a b c d).foldlM body start =
      loop a start fun s i => loop b s fun s j => loop c s fun s k => loop d s fun s l =>
        body s (i, j, k, l) := by
  simp only [grid4, foldlM_flatMap, List.foldlM_map]
  rfl

@[simp] theorem loop_one (start : σ) (body : σ → Nat → Guarded σ) :
    loop 1 start body = body start 0 := by
  rw [loop, List.range_one, List.foldlM_cons]
  cases body start 0 <;> rfl

/-- A loop whose body keeps `P`, from one number of runs to the next, has a result, and `P` holds
of it. -/
theorem loop_total {P : Nat → σ → Prop} {n : Nat} {start : σ} {body : σ → Nat → Guarded σ}
    (first : P 0 start)
    (step : ∀ i < n, ∀ s, P i s → ∃ s', Agrees free (body s i) (.ok s') ∧ P (i + 1) s') :
    ∃ s, Agrees free (loop n start body) (.ok s) ∧ P n s := by
  induction n with
  | zero => exact ⟨start, .refl _, first⟩
  | succ n ih =>
    obtain ⟨s, run, holds⟩ := ih fun i hi => step i (by omega)
    obtain ⟨s', last, holds'⟩ := step n (by omega) s holds
    refine ⟨s', ?_, holds'⟩
    unfold loop at run ⊢
    rw [List.range_succ, List.foldlM_append]
    refine run.step ?_
    rw [List.foldlM_cons]
    exact last.step (.refl _)

/-- The same over a list, with what is done so far instead of a number. -/
theorem foldlM_total {P : List β → σ → Prop} {xs : List β} {start : σ} {body : σ → β → Guarded σ}
    (step : ∀ done, ∀ x ∈ xs, ∀ s, P done s →
      ∃ s', Agrees free (body s x) (.ok s') ∧ P (x :: done) s')
    {done : List β} (first : P done start) :
    ∃ s, Agrees free (xs.foldlM body start) (.ok s) ∧ P (xs.reverse ++ done) s := by
  induction xs generalizing start done with
  | nil => exact ⟨start, .refl _, first⟩
  | cons x xs ih =>
    obtain ⟨s, run, holds⟩ := step done x List.mem_cons_self start first
    obtain ⟨s', rest, holds'⟩ := ih (fun done y hy => step done y (List.mem_cons_of_mem x hy)) holds
    rw [List.foldlM_cons, List.reverse_cons, List.append_assoc, List.singleton_append]
    exact ⟨s', run.step rest, holds'⟩

theorem take_succ_foldl {f : σ → α → σ} {vs : List α} {i : Nat} {v : α} (h : vs[i]? = some v)
    (start : σ) : (vs.take (i + 1)).foldl f start = f ((vs.take i).foldl f start) v := by
  rw [List.take_add_one, h, Option.toList_some, List.foldl_append]
  rfl

/-! ## Buffers written place by place -/

/-- The first `n` elements of `row` are written to their places, and all other places are left as
they were. -/
structure Written (place : Nat → Nat) (row : List α) (before : Buffer α) (n : Nat)
    (after : Buffer α) : Prop where
  size : after.size = before.size
  done : ∀ i < n, after[place i]? = row[i]?
  kept : ∀ j, (∀ i < n, place i ≠ j) → after[j]? = before[j]?

namespace Written

variable {place : Nat → Nat} {row row' : List α} {before now after : Buffer α} {n : Nat}

theorem start : Written place row before 0 before := ⟨rfl, nofun, fun _ _ => rfl⟩

theorem step (h : Written place row before n now) (apart : ∀ i < n, place i ≠ place n)
    (bound : place n < before.size) {v : α} (value : row[n]? = some v) :
    ∃ next, write now (place n) v = .ok next ∧ Written place row before (n + 1) next := by
  have inside : place n < now.size := h.size ▸ bound
  refine ⟨_, write_ok inside v, ?_, fun i hi => ?_, fun j away => ?_⟩
  · rw [Array.size_setIfInBounds, h.size]
  · rcases Nat.lt_succ_iff_lt_or_eq.1 hi with hi | rfl
    · rw [Array.getElem?_setIfInBounds_ne (apart i hi).symm, h.done i hi]
    · rw [Array.getElem?_setIfInBounds_self_of_lt inside, value]
  · rw [Array.getElem?_setIfInBounds_ne (away n (Nat.lt_succ_self n))]
    exact h.kept j fun i hi => away i (Nat.lt_succ_of_lt hi)

/-- Elements that are written twice. -/
theorem trans (h : Written place row before n now) (h' : Written place row' now n after) :
    Written place row' before n after :=
  ⟨h'.size.trans h.size, h'.done, fun j away => (h'.kept j away).trans (h.kept j away)⟩

end Written

section

variable [Scalar α] {positions : List π} {index : π → Nat} {f : π → Option α} {k : π → Guarded α}
  {q : π → Guarded Nat}

theorem fill_from {before : List α}
    (numbered : positions.map index = List.range' before.length positions.length)
    (each : ∀ p ∈ positions, Follows free (k p) (f p))
    (there : ∀ p ∈ positions, Agrees free (q p) (.ok (index p))) {ys : List α}
    (made : positions.mapM f = some ys) :
    Agrees free (positions.foldlM (fun x p => do
        let v ← k p
        write x (← q p) v)
      (before ++ List.replicate positions.length Scalar.zero).toArray)
      (.ok (before ++ ys).toArray) := by
  induction positions generalizing before ys with
  | nil =>
    cases made
    exact .of_eq (by simp [pure, Except.pure])
  | cons p positions ih =>
    rw [List.mapM_cons] at made
    obtain ⟨y, hy, later⟩ := Option.bind_eq_some_iff.1 made
    obtain ⟨rest, others, e⟩ := Option.bind_eq_some_iff.1 later
    cases e
    rw [List.map_cons, List.length_cons, List.range'_succ, List.cons.injEq] at numbered
    obtain ⟨here, numbered⟩ := numbered
    have bound : index p < (before ++ List.replicate (p :: positions).length
        Scalar.zero : List α).toArray.size := by
      rw [here]
      simp
    have written : (before ++ List.replicate (p :: positions).length Scalar.zero
        : List α).toArray.setIfInBounds (index p) y =
          ((before ++ [y]) ++ List.replicate positions.length Scalar.zero).toArray := by
      rw [here, List.setIfInBounds_toArray, List.length_cons, List.replicate_succ,
        List.set_append_right _ _ (Nat.le_refl _), Nat.sub_self, List.set_cons_zero]
      simp
    have first : Agrees free (do
        let v ← k p
        write (before ++ List.replicate (p :: positions).length Scalar.zero).toArray (← q p) v)
        (.ok ((before ++ [y]) ++ List.replicate positions.length Scalar.zero).toArray) := by
      rw [← written]
      refine (each p List.mem_cons_self y hy).step ((there p List.mem_cons_self).step ?_)
      exact .of_eq (write_ok bound y)
    have behind : positions.map index = List.range' (before ++ [y]).length positions.length := by
      simpa using numbered
    have run := ih behind (fun q hq => each q (List.mem_cons_of_mem p hq))
      (fun q hq => there q (List.mem_cons_of_mem p hq)) others
    rw [List.append_assoc before [y] rest, List.singleton_append] at run
    exact first.step run

/-- A buffer of zeros becomes the buffer of some values when they are written to it in the order of
their places. -/
theorem fill_follows (numbered : Kernel.Numbered positions index)
    (each : ∀ p ∈ positions, Follows free (k p) (f p))
    (there : ∀ p ∈ positions, Agrees free (q p) (.ok (index p))) :
    Follows free (positions.foldlM (fun x p => do
        let v ← k p
        write x (← q p) v) (Array.replicate positions.length Scalar.zero))
      (Kernel.tabulate positions f) := by
  intro r tabulated
  obtain ⟨ys, made, rfl⟩ := Option.map_eq_some_iff.1 tabulated
  have from_zero : positions.map index = List.range' ([] : List α).length positions.length := by
    rw [numbered, List.range_eq_range']
    rfl
  have run := fill_from from_zero each there made
  rwa [List.nil_append, List.nil_append, List.toArray_replicate] at run

/-- The same for a buffer with four coordinates. -/
theorem fill_grid4 {a b c d n : Nat} {f : Nat × Nat × Nat × Nat → Option α}
    {k : Nat → Nat → Nat → Nat → Guarded α} {q : Nat → Nat → Nat → Nat → Guarded Nat}
    (each : ∀ i < a, ∀ j < b, ∀ y < c, ∀ x < d, Follows free (k i j y x) (f (i, j, y, x)))
    (there : ∀ i < a, ∀ j < b, ∀ y < c, ∀ x < d, flatIndex b c d (i, j, y, x) < n →
      Agrees free (q i j y x) (.ok (flatIndex b c d (i, j, y, x))))
    (size : a * b * c * d = n) :
    Follows free (loop a (Array.replicate n Scalar.zero) fun r i => loop b r fun r j =>
        loop c r fun r y => loop d r fun r x => do
          let v ← k i j y x
          write r (← q i j y x) v)
      (Kernel.tabulate (grid4 a b c d) f) := by
  have follows : ∀ p ∈ grid4 a b c d, Follows free (k p.1 p.2.1 p.2.2.1 p.2.2.2) (f p) := by
    rintro ⟨i, j, y, x⟩ hp
    obtain ⟨hi, hj, hy, hx⟩ := Kernel.mem_grid4.1 hp
    exact each i hi j hj y hy x hx
  have placed : ∀ p ∈ grid4 a b c d,
      Agrees free (q p.1 p.2.1 p.2.2.1 p.2.2.2) (.ok (flatIndex b c d p)) := by
    rintro ⟨i, j, y, x⟩ hp
    obtain ⟨hi, hj, hy, hx⟩ := Kernel.mem_grid4.1 hp
    refine there i hi j hj y hy x hx ?_
    rw [← size]
    exact Kernel.index_lt (Kernel.index_lt (Kernel.index_lt hi hj) hy) hx
  have written := fill_follows (Kernel.numbered_grid4 a b c d) follows placed
  rwa [loop_grid4, Kernel.grid4_length, size] at written

/-- The same for a buffer with three coordinates. -/
theorem fill_grid3 {b c d n : Nat} {f : Nat × Nat × Nat × Nat → Option α}
    {k : Nat → Nat → Nat → Guarded α} {q : Nat → Nat → Nat → Guarded Nat}
    (each : ∀ j < b, ∀ y < c, ∀ x < d, Follows free (k j y x) (f (0, j, y, x)))
    (there : ∀ j < b, ∀ y < c, ∀ x < d, (j * c + y) * d + x < n →
      Agrees free (q j y x) (.ok ((j * c + y) * d + x)))
    (size : b * c * d = n) :
    Follows free (loop b (Array.replicate n Scalar.zero) fun r j => loop c r fun r y =>
        loop d r fun r x => do
          let v ← k j y x
          write r (← q j y x) v)
      (Kernel.tabulate (grid4 1 b c d) f) := by
  have written := fill_grid4 (a := 1) (k := fun _ => k) (q := fun _ => q) (f := f)
    (fun i hi j hj y hy x hx => Nat.lt_one_iff.1 hi ▸ each j hj y hy x hx)
    (fun i hi j hj y hy x hx bound => by
      obtain rfl := Nat.lt_one_iff.1 hi
      simp only [flatIndex, Nat.zero_mul, Nat.zero_add] at bound ⊢
      exact there j hj y hy x hx bound)
    (n := n) (by rw [Nat.one_mul, size])
  simpa only [loop_one] using written

end

/-- The same for a buffer with two coordinates. -/
theorem fill_pairs [Scalar α] {a b : Nat} {f : Nat × Nat → Option α} {k : Nat → Nat → Guarded α}
    {q : Nat → Nat → Guarded Nat}
    (each : ∀ i < a, ∀ j < b, Follows free (k i j) (f (i, j)))
    (there : ∀ i < a, ∀ j < b, i * b + j < a * b → Agrees free (q i j) (.ok (i * b + j))) :
    Follows free (loop a (Array.replicate (a * b) Scalar.zero) fun x i => loop b x fun x j => do
        let v ← k i j
        write x (← q i j) v)
      (Kernel.tabulate ((List.range a).flatMap fun i => (List.range b).map fun j => (i, j)) f) := by
  have size : ((List.range a).flatMap fun i => (List.range b).map fun j => (i, j)).length =
      a * b := Kernel.length_flatMap_range fun _ => (List.length_map _).trans List.length_range
  have mem {p : Nat × Nat}
      (hp : p ∈ (List.range a).flatMap fun i => (List.range b).map fun j => (i, j)) :
      p.1 < a ∧ p.2 < b := by
    obtain ⟨i, j⟩ := p
    simpa using hp
  have written := fill_follows (f := f) (k := fun p => k p.1 p.2) (q := fun p => q p.1 p.2)
    (Kernel.numbered_pairs a b)
    (fun p hp => each p.1 (mem hp).1 p.2 (mem hp).2)
    (fun p hp => there p.1 (mem hp).1 p.2 (mem hp).2 (Kernel.index_lt (mem hp).1 (mem hp).2))
  rwa [loop_pairs, size] at written

/-! ## States -/

/-- What `m` does to a state, `k` does too, or it ends where a number is too large. It does not end
there if `free` holds. -/
def Run.Agrees (free : Prop) (k : Run σ β) (m : EStateM GraphError σ β) (s : σ) : Prop :=
  k s = Run.perform m s ∨ ¬free ∧ ∃ s', k s = .error (.fault .overflow) s'

theorem Run.perform_eq_ok {m : EStateM GraphError σ β} {s s' : σ} {x : β} :
    Run.perform m s = .ok x s' ↔ m s = .ok x s' := by
  unfold Run.perform
  cases m s <;> simp

theorem Run.perform_ne_fault (m : EStateM GraphError σ β) (s s' : σ) (f : Fault) :
    Run.perform m s ≠ .error (.fault f) s' := by
  unfold Run.perform
  cases m s <;> simp

namespace Run.Agrees

variable {k : Run σ β} {m : EStateM GraphError σ β} {l : β → Run σ γ}
  {f : β → EStateM GraphError σ γ} {s : σ}

theorem perform (m : EStateM GraphError σ β) (s : σ) : Run.Agrees free (Run.perform m) m s :=
  .inl rfl

theorem pure (x : β) (s : σ) : Run.Agrees free (pure x) (Pure.pure x) s := .inl rfl

theorem bind (h : Run.Agrees free k m s)
    (next : ∀ x s', m s = .ok x s' → Run.Agrees free (l x) (f x) s') :
    Run.Agrees free (k >>= l) (m >>= f) s := by
  rcases h with same | ⟨big, s', stops⟩
  · unfold Run.perform at same
    cases run : m s with
    | ok x s' =>
      rw [run] at same
      refine (next x s' run).imp (fun same' => ?_) fun ⟨big, t, stops⟩ => ⟨big, t, ?_⟩
      · rw [Edit.run_bind_ok same, same', Run.perform, Run.perform, Edit.run_bind_ok run]
      · rw [Edit.run_bind_ok same, stops]
    | error e s' =>
      rw [run] at same
      left
      rw [Edit.run_bind_error same, Run.perform, Edit.run_bind_error run]
  · exact .inr ⟨big, s', Edit.run_bind_error stops⟩

theorem congr {k' : Run σ β} {m' : EStateM GraphError σ β} (h : Run.Agrees free k' m' s)
    (guarded : k s = k' s) (exact : m s = m' s) : Run.Agrees free k m s := by
  rw [Run.Agrees, Run.perform, guarded, exact]
  exact h

/-- A computation that leaves the state alone. -/
theorem of_lift {g r : Guarded β} (h : Guarded.Agrees free g r)
    (alone : Run.perform m s = Run.lift r s) : Run.Agrees free (Run.lift g) m s := by
  rcases h with rfl | ⟨big, rfl⟩
  · exact .inl alone.symm
  · exact .inr ⟨big, s, rfl⟩

/-- One that the other run does not make. -/
theorem step {g : Guarded β} {x : β} {m' : EStateM GraphError σ γ}
    (h : Guarded.Agrees free g (.ok x)) (next : Run.Agrees free (l x) m' s) :
    Run.Agrees free (lift g >>= l) m' s := by
  rcases h with rfl | ⟨big, rfl⟩
  · exact next
  · exact .inr ⟨big, s, rfl⟩

theorem forM {xs : List β} {k : β → Run σ Unit} {m : β → EStateM GraphError σ Unit}
    {P : List β → σ → Prop} (each : ∀ x rest s, P (x :: rest) s →
      Run.Agrees free (k x) (m x) s ∧ ∀ u s', m x s = .ok u s' → P rest s')
    (first : P xs s) : Run.Agrees free (xs.forM k) (xs.forM m) s := by
  induction xs generalizing s with
  | nil => exact .pure _ s
  | cons x xs ih =>
    obtain ⟨here, later⟩ := each x xs s first
    exact here.bind fun u s' run => ih (later u s' run)

theorem foldlM {π : Type} {xs : List π} {k : β → π → Run σ β}
    {m : β → π → EStateM GraphError σ β}
    (each : ∀ x ∈ xs, ∀ acc s, Run.Agrees free (k acc x) (m acc x) s) (start : β) (s : σ) :
    Run.Agrees free (xs.foldlM k start) (xs.foldlM m start) s := by
  induction xs generalizing start s with
  | nil => exact .pure start s
  | cons x xs ih =>
    rw [List.foldlM_cons, List.foldlM_cons]
    exact (each x List.mem_cons_self start s).bind fun acc s' _ =>
      ih (fun y hy => each y (List.mem_cons_of_mem x hy)) acc s'

end Run.Agrees

end Guarded

end TensorGraph
