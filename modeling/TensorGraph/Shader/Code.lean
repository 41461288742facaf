import TensorGraph.Scalar

/-!
# TensorGraph.Shader.Code

The part of the WebGPU shading language that kernels are written in.

* `Shader.Index`: unsigned integers: where an element lies.
* `Shader.Term`: floating-point numbers.
* `Shader.Statement`: the statements of a kernel.
* `Shader.Statement.lines`: their text, four blanks to a level.

Printing puts parentheses exactly where the grammar asks for them, apart from `Term.grouped` and
from an operand of a product that is a division.
-/

namespace TensorGraph.Shader

/-- The two buffers of numbers: the constants, and everything else. -/
inductive Buffer where
  | weights
  | data
  deriving DecidableEq

def Buffer.name : Buffer → String
  | .weights => "weights"
  | .data => "data"

/-- Puts a text in parentheses where they are needed. -/
def enclosed (needed : Bool) (text : String) : String :=
  if needed then "(" ++ text ++ ")" else text

inductive Index where
  | literal (n : Nat)
  | named (name : String)
  | add (a b : Index)
  | sub (a b : Index)
  | mul (a b : Index)
  | div (a b : Index)
  | mod (a b : Index)
  deriving DecidableEq

namespace Index

/-- Whether the text of an index stands in a product without parentheses. -/
def isFactor : Index → Bool
  | .literal _ => true
  | .named _ => true
  | .mul _ _ => true
  | _ => false

/-- Text of an index. Sums and differences are written in a row: no difference falls below zero
where it is evaluated, so they may be taken in any order. -/
def text : Index → String
  | .literal n => n.repr ++ "u"
  | .named name => name
  | .add a b => a.text ++ " + " ++ b.text
  | .sub a b => a.text ++ " - " ++ b.text
  | .mul a b => enclosed (!a.isFactor) a.text ++ " * " ++ enclosed (!b.isFactor) b.text
  | .div a b => enclosed (!a.isFactor) a.text ++ " / " ++ enclosed (!b.isFactor) b.text
  | .mod a b => enclosed (!a.isFactor) a.text ++ " % " ++ enclosed (!b.isFactor) b.text

instance : Add Index := ⟨.add⟩
instance : Sub Index := ⟨.sub⟩
instance : Mul Index := ⟨.mul⟩
instance : Div Index := ⟨.div⟩
instance : Mod Index := ⟨.mod⟩

end Index

/-- Conditions on indices. -/
inductive Test where
  | less (a b : Index)
  | atLeast (a b : Index)
  | or (a b : Test)
  deriving DecidableEq

def Test.text : Test → String
  | .less a b => a.text ++ " < " ++ b.text
  | .atLeast a b => a.text ++ " >= " ++ b.text
  | .or a b => a.text ++ " || " ++ b.text

inductive Term (α : Type) where
  | named (name : String)
  | zero
  | one
  /-- The least finite number. -/
  | least
  | constant (x : α)
  | read (buffer : Buffer) (i : Index)
  /-- A term in parentheses. -/
  | grouped (a : Term α)
  | add (a b : Term α)
  | sub (a b : Term α)
  | mul (a b : Term α)
  | div (a b : Term α)
  | neg (a : Term α)
  | exp (a : Term α)
  | tanh (a : Term α)
  | sqrt (a : Term α)
  | max (a b : Term α)
  /-- `a` where `b` is positive, else `otherwise`. -/
  | ifPositive (otherwise a b : Term α)

namespace Term

variable {α : Type}

def isSum : Term α → Bool
  | .add _ _ => true
  | .sub _ _ => true
  | _ => false

def isProduct : Term α → Bool
  | .mul _ _ => true
  | .div _ _ => true
  | _ => false

/-- Text of a term. Operators of one rank group to the left. -/
def text [Scalar α] : Term α → String
  | .named name => name
  | .zero => "0.0"
  | .one => "1.0"
  | .least => "-3.4028235e38"
  | .constant x => Scalar.literal x
  | .read buffer i => buffer.name ++ "[" ++ i.text ++ "]"
  | .grouped a => "(" ++ a.text ++ ")"
  | .add a b => a.text ++ " + " ++ enclosed b.isSum b.text
  | .sub a b => a.text ++ " - " ++ enclosed b.isSum b.text
  | .mul a b => enclosed a.isSum a.text ++ " * " ++ enclosed (b.isSum || b.isProduct) b.text
  | .div a b => enclosed a.isSum a.text ++ " / " ++ enclosed (b.isSum || b.isProduct) b.text
  | .neg a => "-" ++ enclosed (a.isSum || a.isProduct) a.text
  | .exp a => "exp(" ++ a.text ++ ")"
  | .tanh a => "tanh(" ++ a.text ++ ")"
  | .sqrt a => "sqrt(" ++ a.text ++ ")"
  | .max a b => "max(" ++ a.text ++ ", " ++ b.text ++ ")"
  | .ifPositive c a b => "select(" ++ c.text ++ ", " ++ a.text ++ ", " ++ b.text ++ " > 0.0)"

instance : Add (Term α) := ⟨.add⟩
instance : Sub (Term α) := ⟨.sub⟩
instance : Mul (Term α) := ⟨.mul⟩
instance : Div (Term α) := ⟨.div⟩
instance : Neg (Term α) := ⟨.neg⟩

end Term

inductive Statement (α : Type) where
  /-- Names an index. -/
  | index (name : String) (i : Index)
  /-- Names an entry of the parameter table. -/
  | parameter (name : String) (entry : Nat)
  /-- Names a number. -/
  | number (name : String) (x : Term α)
  /-- Declares an accumulator. -/
  | accumulator (name : String) (x : Term α)
  | assign (name : String) (x : Term α)
  /-- Writes to the data buffer. -/
  | store (i : Index) (x : Term α)
  /-- Ends the invocation if the test holds. -/
  | returnIf (test : Test)
  /-- Goes on with the next turn of the innermost loop if the test holds. -/
  | continueIf (test : Test)
  /-- Runs the body for `0`, `1`, … up to but not including `bound`. -/
  | loop (name : String) (bound : Nat) (body : List (Statement α))
  | block (body : List (Statement α))

namespace Statement

def indented (level : Nat) (line : String) : String :=
  .ofList (List.replicate (4 * level) ' ') ++ line ++ "\n"

/-- The lines of a jump under a condition. -/
def jumpLines (level : Nat) (test : Test) (jump : String) : String :=
  indented level ("if (" ++ test.text ++ ") \x7b") ++ indented (level + 1) jump ++
    indented level "\x7d"

variable {α : Type} [Scalar α]

mutual

/-- The lines of a statement at a level. -/
def lines (level : Nat) : Statement α → String
  | .index name i => indented level ("let " ++ name ++ " = " ++ i.text ++ ";")
  | .parameter name entry =>
    indented level ("let " ++ name ++ " = params[" ++ (Index.literal entry).text ++ "];")
  | .number name x => indented level ("let " ++ name ++ " = " ++ x.text ++ ";")
  | .accumulator name x => indented level ("var " ++ name ++ ": f32 = " ++ x.text ++ ";")
  | .assign name x => indented level (name ++ " = " ++ x.text ++ ";")
  | .store i x => indented level ((Term.read .data i : Term α).text ++ " = " ++ x.text ++ ";")
  | .returnIf test => jumpLines level test "return;"
  | .continueIf test => jumpLines level test "continue;"
  | .loop name bound body =>
    indented level ("for (var " ++ name ++ ": u32 = 0u; " ++ name ++ " < " ++
      (Index.literal bound).text ++ "; " ++ name ++ " = " ++ name ++ " + 1u) \x7b") ++
      bodyLines (level + 1) body ++ indented level "\x7d"
  | .block body => indented level "\x7b" ++ bodyLines (level + 1) body ++ indented level "\x7d"

def bodyLines (level : Nat) : List (Statement α) → String
  | [] => ""
  | s :: rest => s.lines level ++ bodyLines level rest

end

end Statement

end TensorGraph.Shader
