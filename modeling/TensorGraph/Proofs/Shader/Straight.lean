import TensorGraph.Shader.Code

/-!
# TensorGraph.Proofs.Shader.Straight

Straight code on numbers.

* `Machine`: the numbers that an invocation has names for, and those in the buffers.
* `Term.value?`: the number that a term stands for.
* `Machine.run`: what straight code makes of a machine. The lemmas that begin with `run_` are one
  for each statement.
-/

namespace TensorGraph.Shader

structure Machine (α : Type) where
  numbers : String → Option α
  buffers : Buffer → Nat → Option α

variable {α : Type}

namespace Machine

variable (m : Machine α) (v : α)

def bind (name : String) : Machine α :=
  { m with numbers := fun x => if x = name then some v else m.numbers x }

/-- Writes element `n` of the one buffer that is written. -/
def write (n : Nat) : Machine α :=
  { m with buffers := fun b e => if b = .data ∧ e = n then some v else m.buffers b e }

/-- A buffer has the elements of a tensor in a row. -/
def Holds (b : Buffer) (start : Nat) (x : Array α) : Prop :=
  ∀ e v, x[e]? = some v → m.buffers b (start + e) = some v

@[simp] theorem numbers_bind (name : String) : (m.bind v name).numbers name = some v :=
  if_pos rfl

theorem numbers_bind_of_ne {name x : String} (h : x ≠ name) :
    (m.bind v name).numbers x = m.numbers x := if_neg h

@[simp] theorem buffers_bind (name : String) : (m.bind v name).buffers = m.buffers := rfl

@[simp] theorem buffers_write (n : Nat) : (m.write v n).buffers .data n = some v :=
  if_pos ⟨rfl, rfl⟩

end Machine

/-- The number that a term stands for whose elements are named by their numbers. -/
def Term.value? [Scalar α] (m : Machine α) : Term α → Option α
  | .named x => m.numbers x
  | .zero => some Scalar.zero
  | .one => some Scalar.one
  | .least => some Scalar.leastFinite
  | .constant x => some x
  | .read buffer (.literal n) => m.buffers buffer n
  | .read _ _ => none
  | .grouped a => a.value? m
  | .add a b => do return (← a.value? m) + (← b.value? m)
  | .sub a b => do return (← a.value? m) - (← b.value? m)
  | .mul a b => do return (← a.value? m) * (← b.value? m)
  | .div a b => do return (← a.value? m) / (← b.value? m)
  | .neg a => do return -(← a.value? m)
  | .exp a => do return Scalar.exp (← a.value? m)
  | .tanh a => do return Scalar.tanh (← a.value? m)
  | .sqrt a => do return Scalar.sqrt (← a.value? m)
  | .max a b => do return Scalar.max (← a.value? m) (← b.value? m)
  | .ifPositive c a b => do
    let otherwise ← c.value? m
    let v ← a.value? m
    return if Scalar.positive (← b.value? m) then v else otherwise

/-- The text of the least finite number is the shortest decimal of it. -/
example : (Term.least : Term Binary32).text = (Scalar.leastFinite : Binary32).text .shader := by
  decide

namespace Machine

variable [Scalar α]

/-- What one statement of straight code makes of a machine. -/
def step (m : Machine α) : Statement α → Option (Machine α)
  | .number name x => do return m.bind (← x.value? m) name
  | .accumulator name x => do return m.bind (← x.value? m) name
  | .assign name x => do return m.bind (← x.value? m) name
  | .store (.literal n) x => do return m.write (← x.value? m) n
  | _ => none

def run (m : Machine α) (code : List (Statement α)) : Option (Machine α) := code.foldlM step m

variable {m : Machine α} {x : Term α} {v : α} {rest : List (Statement α)}

theorem run_append {code : List (Statement α)} {m' : Machine α} (h : m.run code = some m') :
    m.run (code ++ rest) = m'.run rest := by
  rw [run, List.foldlM_append]
  change (m.run code).bind _ = _
  rw [h]
  rfl

theorem run_cons {statement : Statement α} {m' : Machine α} (h : m.step statement = some m') :
    m.run (statement :: rest) = m'.run rest := by
  rw [run, List.foldlM_cons, h]
  rfl

theorem run_number {name : String} (h : x.value? m = some v) :
    m.run (.number name x :: rest) = (m.bind v name).run rest :=
  run_cons (by rw [step, h]; rfl)

theorem run_accumulator {name : String} (h : x.value? m = some v) :
    m.run (.accumulator name x :: rest) = (m.bind v name).run rest :=
  run_cons (by rw [step, h]; rfl)

theorem run_assign {name : String} (h : x.value? m = some v) :
    m.run (.assign name x :: rest) = (m.bind v name).run rest :=
  run_cons (by rw [step, h]; rfl)

theorem run_store {n : Nat} (h : x.value? m = some v) :
    m.run (.store (.literal n) x :: rest) = (m.write v n).run rest :=
  run_cons (by rw [step, h]; rfl)

end Machine

end TensorGraph.Shader
