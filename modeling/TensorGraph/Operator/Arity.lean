/-!
# TensorGraph.Operator.Arity

How many operands something takes.
-/

namespace TensorGraph

/-- At least `least` operands, and at most `most` if that is given. -/
structure Arity where
  least : Nat
  most : Option Nat
  deriving DecidableEq

namespace Arity

def exactly (n : Nat) : Arity := ⟨n, some n⟩

def between (least most : Nat) : Arity := ⟨least, some most⟩

def atLeast (n : Nat) : Arity := ⟨n, none⟩

def admits (a : Arity) (n : Nat) : Bool :=
  a.least ≤ n && (match a.most with
    | some most => n ≤ most
    | none => true)

def text (a : Arity) : String :=
  match a.most with
  | none => "at least " ++ a.least.repr
  | some most => if most = a.least then most.repr else a.least.repr ++ " to " ++ most.repr

end Arity

end TensorGraph
