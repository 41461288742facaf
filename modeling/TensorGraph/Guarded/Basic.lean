import TensorGraph.Error
import TensorGraph.Evaluation.Kernel

/-!
# TensorGraph.Guarded.Basic

Computations on words of 64 bits that notice a step without a result.

* `Guarded`: a computation that ends with a result, an error that it reports, or a fault.
* `plus`, `times`, `minus`, `quotient`, `remainder`: arithmetic.
* `flat`, `position`, `cell`, `count`: indices and sizes, step by step.
* `read`, `write`, `slice`, `zeros`: buffers.
* `Guarded.Run`: a guarded computation on a state.

The rules for shapes and the kernels count without a bound. What is here is how a machine computes
them, which is the same as long as every number on the way fits a word.
-/

namespace TensorGraph

open Kernel (Buffer)

/-- What a step has no result for: an index outside of a buffer, a difference below zero, a division
by zero, a node that is not live, or a number or a buffer that is too large. -/
inductive Fault where
  | index
  | negative
  | divisor
  | dead
  | overflow
  deriving DecidableEq

/-- Why a computation ends without a result. -/
inductive Stop where
  | error (e : GraphError)
  | fault (f : Fault)
  deriving DecidableEq

abbrev Guarded := Except Stop

namespace Guarded

variable {α β σ π : Type}

def demand (f : Fault) : Option β → Guarded β
  | some x => .ok x
  | none => .error (.fault f)

/-- The result of a computation that has no faults. -/
def report : Except GraphError β → Guarded β
  | .ok x => .ok x
  | .error e => .error (.error e)

/-! ## Numbers -/

/-- The numbers below this one fit a word. -/
def wordLimit : Nat := Nat.pow 2 64

/-- Buffers have fewer elements than this. An element takes four bytes, and half of all words number
the bytes of a buffer. -/
def bufferLimit : Nat := Nat.pow 2 61

def word (n : Nat) : Guarded Nat := if n < wordLimit then .ok n else .error (.fault .overflow)

def plus (a b : Nat) : Guarded Nat := word (a + b)

def times (a b : Nat) : Guarded Nat := word (a * b)

def minus (a b : Nat) : Guarded Nat := if b ≤ a then .ok (a - b) else .error (.fault .negative)

def quotient (a b : Nat) : Guarded Nat := if b = 0 then .error (.fault .divisor) else .ok (a / b)

def remainder (a b : Nat) : Guarded Nat := if b = 0 then .error (.fault .divisor) else .ok (a % b)

/-- Where the element at `offset` of a block stands, behind the blocks before it. -/
def flat (block size offset : Nat) : Guarded Nat := do plus (← times block size) offset

/-- Row-major index in a grid whose last two extents are `c` and `d`. -/
def position (c d i y x : Nat) : Guarded Nat := do flat (← flat i c y) d x

/-- Row-major index in a grid whose last three extents are `b`, `c` and `d`. -/
def cell (b c d i j y x : Nat) : Guarded Nat := do position c d (← flat i b j) y x

/-- The number of elements of a shape. -/
def count (s : Shape) : Guarded Nat := s.foldlM times 1

/-! ## Buffers -/

def read (x : Buffer α) (i : Nat) : Guarded α := demand .index x[i]?

def entry (xs : List β) (i : Nat) : Guarded β := demand .index xs[i]?

def write (x : Buffer α) (i : Nat) (v : α) : Guarded (Buffer α) :=
  if i < x.size then .ok (x.setIfInBounds i v) else .error (.fault .index)

/-- The elements from `low` on, up to `high`. -/
def slice (x : Buffer α) (low high : Nat) : Guarded (Buffer α) :=
  if low ≤ high ∧ high ≤ x.size then .ok (x.extract low high) else .error (.fault .index)

def zeros [Scalar α] (n : Nat) : Guarded (Buffer α) :=
  if n < bufferLimit then .ok (Array.replicate n Scalar.zero) else .error (.fault .overflow)

/-- A state taken through a body that runs `n` times. -/
def loop (n : Nat) (start : σ) (body : σ → Nat → Guarded σ) : Guarded σ :=
  (List.range n).foldlM body start

/-- The buffer of the values of `f` at the given positions. -/
def collect (positions : List π) (f : π → Guarded α) : Guarded (Buffer α) :=
  (positions.mapM f).map List.toArray

/-! ## States -/

/-- A guarded computation on a state. -/
abbrev Run (σ β : Type) := EStateM Stop σ β

namespace Run

/-- A guarded computation that leaves the state alone. -/
def lift : Guarded β → Run σ β
  | .ok x => pure x
  | .error stop => throw stop

/-- A computation on a state that has no faults. -/
def perform (e : EStateM GraphError σ β) : Run σ β := fun s =>
  match e s with
  | .ok x s => .ok x s
  | .error e s => .error (.error e) s

end Run

end Guarded

end TensorGraph
