import TensorGraph.Shader.Kernel

/-!
# TensorGraph.Proofs.Shader.Unrolled

Code with its indices worked out in natural numbers.

* `Index.value?`: an index as a number, where no difference falls below zero and nothing is divided
  by zero.
* `Index.written?`: the same from left to right, as sums are written without parentheses.
  `written?_of_value?`: where there is a value, this is the one.
* `unroll`: what is left of some code when its loops are unrolled, its tests are decided and its
  elements are named by their numbers: straight code, which only combines numbers.
* the lemmas that begin with `unroll_`: one for each statement.
-/

namespace TensorGraph.Shader

/-! ## Indices -/

/-- The numbers that names of indices stand for. -/
abbrev Scope := String → Option Nat

def Scope.bind (σ : Scope) (name : String) (n : Nat) : Scope :=
  fun x => if x = name then some n else σ x

@[simp] theorem Scope.bind_self (σ : Scope) (name : String) (n : Nat) :
    σ.bind name n name = some n := if_pos rfl

theorem Scope.bind_of_ne (σ : Scope) {name x : String} (h : x ≠ name) (n : Nat) :
    σ.bind name n x = σ x := if_neg h

/-- A difference that does not fall below zero. -/
def difference? (m n : Nat) : Option Nat := if n ≤ m then some (m - n) else none

def quotient? (m n : Nat) : Option Nat := if n = 0 then none else some (m / n)

def remainder? (m n : Nat) : Option Nat := if n = 0 then none else some (m % n)

theorem difference?_eq_some {m n k : Nat} : difference? m n = some k ↔ m = k + n := by
  unfold difference?
  split
  · rw [Option.some.injEq]
    omega
  · simp only [reduceCtorEq, false_iff]
    omega

namespace Index

/-- An index as a natural number. -/
def value? (σ : Scope) : Index → Option Nat
  | .literal n => some n
  | .named x => σ x
  | .add a b => do return (← a.value? σ) + (← b.value? σ)
  | .sub a b => do difference? (← a.value? σ) (← b.value? σ)
  | .mul a b => do return (← a.value? σ) * (← b.value? σ)
  | .div a b => do quotient? (← a.value? σ) (← b.value? σ)
  | .mod a b => do remainder? (← a.value? σ) (← b.value? σ)

/-- The sum of `m` and an index, as its text behind a `+` is read from left to right. -/
def written? (σ : Scope) (m : Nat) : Index → Option Nat
  | .literal n => some (m + n)
  | .named x => do return m + (← σ x)
  | .add a b => do b.written? σ (← a.written? σ m)
  | .sub a b => do difference? (← a.written? σ m) (← b.written? σ 0)
  | .mul a b => do return m + (← a.written? σ 0) * (← b.written? σ 0)
  | .div a b => do return m + (← quotient? (← a.written? σ 0) (← b.written? σ 0))
  | .mod a b => do return m + (← remainder? (← a.written? σ 0) (← b.written? σ 0))

variable {σ : Scope} {a b : Index} {m n : Nat}

theorem value?_named {name : String} (h : σ name = some n) :
    (Index.named name).value? σ = some n := h

theorem value?_literal : (Index.literal n).value? σ = some n := rfl

theorem value?_add (ha : a.value? σ = some m) (hb : b.value? σ = some n) :
    (a + b).value? σ = some (m + n) := by
  show (do return (← a.value? σ) + (← b.value? σ)) = _
  rw [ha, hb]
  rfl

theorem value?_mul (ha : a.value? σ = some m) (hb : b.value? σ = some n) :
    (a * b).value? σ = some (m * n) := by
  show (do return (← a.value? σ) * (← b.value? σ)) = _
  rw [ha, hb]
  rfl

theorem value?_sub {k : Nat} (ha : a.value? σ = some m) (hb : b.value? σ = some n)
    (h : m = k + n) : (a - b).value? σ = some k := by
  show (do difference? (← a.value? σ) (← b.value? σ)) = _
  rw [ha, hb]
  exact difference?_eq_some.2 h

theorem value?_div (ha : a.value? σ = some m) (hb : b.value? σ = some n) (positive : 0 < n) :
    (a / b).value? σ = some (m / n) := by
  show (do quotient? (← a.value? σ) (← b.value? σ)) = _
  rw [ha, hb]
  exact if_neg (by omega)

theorem value?_mod (ha : a.value? σ = some m) (hb : b.value? σ = some n) (positive : 0 < n) :
    (a % b).value? σ = some (m % n) := by
  show (do remainder? (← a.value? σ) (← b.value? σ)) = _
  rw [ha, hb]
  exact if_neg (by omega)

/-- Sums may be taken in the order of their text: a difference that does not fall below zero does
not do so either with something in front of it. -/
theorem written?_of_value? {i : Index} {m n : Nat} (h : i.value? σ = some n) :
    i.written? σ m = some (m + n) := by
  induction i generalizing m n with
  | literal k =>
    cases h
    rfl
  | named x =>
    have h : σ x = some n := h
    rw [written?, h]
    rfl
  | add a b iha ihb =>
    simp only [value?, Option.bind_eq_bind, Option.bind_eq_some_iff] at h
    obtain ⟨x, ha, y, hb, e⟩ := h
    cases e
    rw [written?, iha ha, Option.bind_eq_bind, Option.bind_some, ihb hb, Nat.add_assoc]
  | sub a b iha ihb =>
    simp only [value?, Option.bind_eq_bind, Option.bind_eq_some_iff, difference?_eq_some] at h
    obtain ⟨x, ha, y, hb, rfl⟩ := h
    rw [written?, iha ha, ihb hb]
    exact difference?_eq_some.2 (by omega)
  | mul a b iha ihb =>
    simp only [value?, Option.bind_eq_bind, Option.bind_eq_some_iff] at h
    obtain ⟨x, ha, y, hb, e⟩ := h
    cases e
    rw [written?, iha ha, ihb hb]
    simp
  | div a b iha ihb =>
    simp only [value?, Option.bind_eq_bind, Option.bind_eq_some_iff] at h
    obtain ⟨x, ha, y, hb, e⟩ := h
    rw [written?, iha ha, ihb hb]
    simp [e]
  | mod a b iha ihb =>
    simp only [value?, Option.bind_eq_bind, Option.bind_eq_some_iff] at h
    obtain ⟨x, ha, y, hb, e⟩ := h
    rw [written?, iha ha, ihb hb]
    simp [e]

theorem written?_zero {i : Index} {n : Nat} (h : i.value? σ = some n) :
    i.written? σ 0 = some n := by
  rw [written?_of_value? h, Nat.zero_add]

end Index

/-- Tests. The second of two is only looked at where the first one fails. -/
def Test.holds? (σ : Scope) : Test → Option Bool
  | .less a b => do return (← a.written? σ 0) < (← b.written? σ 0)
  | .atLeast a b => do return (← b.written? σ 0) ≤ (← a.written? σ 0)
  | .or a b => do if ← a.holds? σ then return true else b.holds? σ

/-! ## Code -/

variable {α : Type}

/-- A term whose elements are named by their numbers. -/
def Term.located? (σ : Scope) : Term α → Option (Term α)
  | .read buffer i => do return .read buffer (.literal (← i.written? σ 0))
  | .grouped a => do return .grouped (← a.located? σ)
  | .add a b => do return .add (← a.located? σ) (← b.located? σ)
  | .sub a b => do return .sub (← a.located? σ) (← b.located? σ)
  | .mul a b => do return .mul (← a.located? σ) (← b.located? σ)
  | .div a b => do return .div (← a.located? σ) (← b.located? σ)
  | .neg a => do return .neg (← a.located? σ)
  | .exp a => do return .exp (← a.located? σ)
  | .tanh a => do return .tanh (← a.located? σ)
  | .sqrt a => do return .sqrt (← a.located? σ)
  | .max a b => do return .max (← a.located? σ) (← b.located? σ)
  | .ifPositive c a b => do
    return .ifPositive (← c.located? σ) (← a.located? σ) (← b.located? σ)
  | x => some x

section

variable {σ : Scope} {a b : Term α}

@[simp] theorem Term.located?_named {name : String} :
    (Term.named name : Term α).located? σ = some (.named name) := rfl

@[simp] theorem Term.located?_constant {x : α} :
    (Term.constant x).located? σ = some (.constant x) := rfl

@[simp] theorem Term.located?_zero : (Term.zero : Term α).located? σ = some .zero := rfl

@[simp] theorem Term.located?_one : (Term.one : Term α).located? σ = some .one := rfl

@[simp] theorem Term.located?_grouped :
    (Term.grouped a).located? σ = (do return .grouped (← a.located? σ)) := rfl

@[simp] theorem Term.located?_neg :
    (-a).located? σ = (do return -(← a.located? σ)) := rfl

@[simp] theorem Term.located?_tanh :
    (Term.tanh a).located? σ = (do return .tanh (← a.located? σ)) := rfl

@[simp] theorem Term.located?_ifPositive {c : Term α} :
    (Term.ifPositive c a b).located? σ =
      (do return .ifPositive (← c.located? σ) (← a.located? σ) (← b.located? σ)) := rfl

@[simp] theorem Term.located?_add :
    (a + b).located? σ = (do return (← a.located? σ) + (← b.located? σ)) := rfl

@[simp] theorem Term.located?_sub :
    (a - b).located? σ = (do return (← a.located? σ) - (← b.located? σ)) := rfl

@[simp] theorem Term.located?_mul :
    (a * b).located? σ = (do return (← a.located? σ) * (← b.located? σ)) := rfl

@[simp] theorem Term.located?_div :
    (a / b).located? σ = (do return (← a.located? σ) / (← b.located? σ)) := rfl

@[simp] theorem Term.located?_exp :
    (Term.exp a).located? σ = (do return .exp (← a.located? σ)) := rfl

@[simp] theorem Term.located?_sqrt :
    (Term.sqrt a).located? σ = (do return .sqrt (← a.located? σ)) := rfl

@[simp] theorem Term.located?_max :
    (Term.max a b).located? σ = (do return .max (← a.located? σ) (← b.located? σ)) := rfl

end

/-- How code ends: at its end, at a jump to the next turn of a loop, or at that to the end of the
invocation. -/
inductive Exit where
  | finished
  | continued
  | returned
  deriving DecidableEq

/-- Straight code and how it ends. -/
abbrev Unrolled (α : Type) := List (Statement α) × Exit

/-- The turns of a loop. -/
def turns (turn : Nat → Option (Unrolled α)) : List Nat → Option (Unrolled α)
  | [] => some ([], .finished)
  | k :: ks => do
    let (code, exit) ← turn k
    if exit = .returned then return (code, exit)
    let (rest, exit) ← turns turn ks
    return (code ++ rest, exit)

variable (params : Nat → Nat)

mutual

/-- One statement, and the scope behind it. -/
def unrollOne (σ : Scope) : Statement α → Option (Scope × Unrolled α)
  | .index name i => do return (σ.bind name (← i.written? σ 0), [], .finished)
  | .parameter name entry => some (σ.bind name (params entry), [], .finished)
  | .number name x => do return (σ, [.number name (← x.located? σ)], .finished)
  | .accumulator name x => do return (σ, [.accumulator name (← x.located? σ)], .finished)
  | .assign name x => do return (σ, [.assign name (← x.located? σ)], .finished)
  | .store i x => do
    return (σ, [.store (.literal (← i.written? σ 0)) (← x.located? σ)], .finished)
  | .returnIf test => do return (σ, [], if ← test.holds? σ then .returned else .finished)
  | .continueIf test => do return (σ, [], if ← test.holds? σ then .continued else .finished)
  | .loop name bound body => do
    return (σ, ← turns (fun k => unroll (σ.bind name k) body) (List.range bound))
  | .block body => do return (σ, ← unroll σ body)

/-- What an invocation with the parameter table `params` performs. -/
def unroll (σ : Scope) : List (Statement α) → Option (Unrolled α)
  | [] => some ([], .finished)
  | s :: rest => do
    let (σ, code, exit) ← unrollOne σ s
    if exit = .finished then
      let (others, exit) ← unroll σ rest
      return (code ++ others, exit)
    else return (code, exit)

end

variable {params} {σ : Scope} {rest : List (Statement α)}

/-- Straight code in front of what is unrolled. -/
def Unrolled.prepend (code : List (Statement α)) (u : Unrolled α) : Unrolled α :=
  (code ++ u.1, u.2)

theorem unroll_cons {s : Statement α} {σ' : Scope} {code : List (Statement α)}
    (h : unrollOne params σ s = some (σ', code, .finished)) :
    unroll params σ (s :: rest) = (unroll params σ' rest).map (Unrolled.prepend code) := by
  rw [unroll, h, Option.bind_eq_bind, Option.bind_some]
  dsimp only
  rw [if_pos rfl]
  cases unroll params σ' rest <;> rfl

/-- A jump ends the code. -/
theorem unroll_jump {s : Statement α} {σ' : Scope} {exit : Exit} (jumps : exit ≠ .finished)
    (h : unrollOne params σ s = some (σ', [], exit)) :
    unroll params σ (s :: rest) = some ([], exit) := by
  rw [unroll, h, Option.bind_eq_bind, Option.bind_some]
  exact if_neg jumps

theorem map_prepend_nil (u : Option (Unrolled α)) : u.map (Unrolled.prepend []) = u := by
  cases u <;> rfl

/-- A statement that performs nothing. -/
theorem unroll_silent {s : Statement α} {σ' : Scope}
    (h : unrollOne params σ s = some (σ', [], .finished)) :
    unroll params σ (s :: rest) = unroll params σ' rest := by
  rw [unroll_cons h, map_prepend_nil]

theorem unroll_index {name : String} {i : Index} {n : Nat} (h : i.value? σ = some n) :
    unroll params σ (.index name i :: rest) = unroll params (σ.bind name n) rest := by
  refine unroll_silent ?_
  show (i.written? σ 0 >>= _) = _
  rw [Index.written?_zero h]
  rfl

theorem unroll_parameter {name : String} {entry : Nat} :
    unroll params σ (.parameter name entry :: rest) =
      unroll params (σ.bind name (params entry)) rest := unroll_silent rfl

section

variable {name : String} {x y : Term α} (h : x.located? σ = some y)

include h

theorem unroll_number : unroll params σ (.number name x :: rest) =
    (unroll params σ rest).map (Unrolled.prepend [.number name y]) := by
  refine unroll_cons ?_
  show (x.located? σ >>= _) = _
  rw [h]
  rfl

theorem unroll_accumulator : unroll params σ (.accumulator name x :: rest) =
    (unroll params σ rest).map (Unrolled.prepend [.accumulator name y]) := by
  refine unroll_cons ?_
  show (x.located? σ >>= _) = _
  rw [h]
  rfl

theorem unroll_assign : unroll params σ (.assign name x :: rest) =
    (unroll params σ rest).map (Unrolled.prepend [.assign name y]) := by
  refine unroll_cons ?_
  show (x.located? σ >>= _) = _
  rw [h]
  rfl

end

theorem unroll_store {i : Index} {n : Nat} {x y : Term α} (hi : i.value? σ = some n)
    (h : x.located? σ = some y) : unroll params σ (.store i x :: rest) =
      (unroll params σ rest).map (Unrolled.prepend [.store (.literal n) y]) := by
  refine unroll_cons ?_
  show (i.written? σ 0 >>= fun _ => x.located? σ >>= _) = _
  rw [h, Index.written?_zero hi]
  rfl

section

variable {test : Test} {holds : Bool} (h : test.holds? σ = some holds)

include h

theorem unrollOne_returnIf : unrollOne params σ (.returnIf test : Statement α) =
    some (σ, [], if holds then .returned else .finished) := by
  show (test.holds? σ >>= _) = _
  rw [h]
  rfl

theorem unrollOne_continueIf : unrollOne params σ (.continueIf test : Statement α) =
    some (σ, [], if holds then .continued else .finished) := by
  show (test.holds? σ >>= _) = _
  rw [h]
  rfl

end

theorem unroll_returnIf {test : Test} (h : test.holds? σ = some false) :
    unroll params σ (.returnIf test :: rest) = unroll params σ rest :=
  unroll_silent (unrollOne_returnIf h)

theorem unroll_returned {test : Test} (h : test.holds? σ = some true) :
    unroll params σ (.returnIf test :: rest) = some ([], .returned) :=
  unroll_jump nofun (unrollOne_returnIf h)

theorem unroll_continueIf {test : Test} (h : test.holds? σ = some false) :
    unroll params σ (.continueIf test :: rest) = unroll params σ rest :=
  unroll_silent (unrollOne_continueIf h)

theorem unroll_continued {test : Test} (h : test.holds? σ = some true) :
    unroll params σ (.continueIf test :: rest) = some ([], .continued) :=
  unroll_jump nofun (unrollOne_continueIf h)

theorem unroll_block {body code : List (Statement α)}
    (h : unroll params σ body = some (code, .finished)) :
    unroll params σ (.block body :: rest) =
      (unroll params σ rest).map (Unrolled.prepend code) := by
  refine unroll_cons ?_
  show (unroll params σ body >>= _) = _
  rw [h]
  rfl

/-- A loop every turn of which ends, at its end or before it. -/
theorem unroll_loop {name : String} {bound : Nat} {body : List (Statement α)}
    (code : Nat → List (Statement α))
    (turn : ∀ k < bound, ∃ exit, exit ≠ .returned ∧
      unroll params (σ.bind name k) body = some (code k, exit)) :
    unroll params σ (.loop name bound body :: rest) = (unroll params σ rest).map
      (Unrolled.prepend ((List.range bound).flatMap code)) := by
  have all (ks : List Nat) (within : ∀ k ∈ ks, k < bound) :
      turns (fun k => unroll params (σ.bind name k) body) ks =
        some (ks.flatMap code, .finished) := by
    induction ks with
    | nil => rfl
    | cons k ks ih =>
      obtain ⟨first, others⟩ := List.forall_mem_cons.1 within
      obtain ⟨exit, goes, run⟩ := turn k first
      rw [turns, run, Option.bind_eq_bind, Option.bind_some]
      dsimp only
      rw [if_neg goes, ih others]
      rfl
  refine unroll_cons ?_
  show (turns (fun k => unroll params (σ.bind name k) body) (List.range bound) >>= _) = _
  rw [all _ fun k hk => List.mem_range.1 hk]
  rfl

end TensorGraph.Shader
