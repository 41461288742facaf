import TensorGraph.Decimal.Layout

/-!
# TensorGraph.Binary32

Numbers of 32 bits by their words.

* `Binary32`: a number as a word, so that a NaN keeps its sign and its payload.
* `Binary32.unary`, `Binary32.binary`: operations on words from operations on values.

An operation whose value is a NaN gives the first NaN among its operands, made quiet. If no operand
is one, the operation has no result, and gives `Binary32.indefinite`.
-/

namespace TensorGraph

structure Binary32 where
  bits : UInt32
  deriving DecidableEq

namespace Binary32

/-- The number, all NaNs being one. -/
def value (x : Binary32) : Float32 := .ofBits x.bits

def ofValue (x : Float32) : Binary32 := ⟨x.toBits⟩

/-- The nearest number, a tie going to the even significand. -/
def ofNat (n : Nat) : Binary32 := ofValue (Float32.ofNat n)

instance : OfScientific Binary32 := ⟨fun m sign e => ofValue (OfScientific.ofScientific m sign e)⟩

instance (n : Nat) : OfNat Binary32 n := ⟨ofNat n⟩

/-- The nearest number, like `ofNat`. A number past the largest finite one becomes infinite. -/
def ofFloat64 (x : Float) : Binary32 :=
  ofValue (.ofModel (.pack
    (match x.toModel.unpack with
    | .finite sign m e _ => .round .binary32 sign m e
    | other => other)))

def isNaN (x : Binary32) : Bool := 0x7f800000 < (x.bits &&& 0x7fffffff)

def isFinite (x : Binary32) : Bool := (x.bits &&& 0x7fffffff) < 0x7f800000

/-- A NaN without the mark of one that signals. -/
def quiet (x : Binary32) : Binary32 := ⟨x.bits ||| 0x00400000⟩

/-- The NaN of an operation that has no result. -/
def indefinite : Binary32 := ⟨0xffc00000⟩

/-- The NaN that an operation gives. -/
def nanOf (operands : List Binary32) : Binary32 :=
  match operands.find? isNaN with
  | some x => x.quiet
  | none => indefinite

def unary (f : Float32 → Float32) (x : Binary32) : Binary32 :=
  let y := f x.value
  if y.isNaN then nanOf [x] else ofValue y

def binary (f : Float32 → Float32 → Float32) (x y : Binary32) : Binary32 :=
  let z := f x.value y.value
  if z.isNaN then nanOf [x, y] else ofValue z

instance : Add Binary32 := ⟨binary (· + ·)⟩
instance : Sub Binary32 := ⟨binary (· - ·)⟩
instance : Mul Binary32 := ⟨binary (· * ·)⟩
instance : Div Binary32 := ⟨binary (· / ·)⟩

/-- The sign of a NaN turns like any other. -/
instance : Neg Binary32 := ⟨fun x => ⟨x.bits ^^^ 0x80000000⟩⟩

@[simp] theorem bits_neg (x : Binary32) : (-x).bits = x.bits ^^^ 0x80000000 := rfl

def sqrt : Binary32 → Binary32 := unary Float32.sqrt

/-! Functions that are not algebraic are computed with 64 bits: rounding their values gives the
nearest number of 32 bits, except where 53 digits cannot tell on which side of a tie one lies. -/

def exp : Binary32 → Binary32 := unary fun x => x.toFloat.exp.toFloat32

def tanh : Binary32 → Binary32 := unary fun x => x.toFloat.tanh.toFloat32

def pow : Binary32 → Binary32 → Binary32 :=
  binary fun x y => (x.toFloat.pow y.toFloat).toFloat32

/-- The greater of two numbers, and the second one if they are equal, as zeros of either sign are.
A NaN is less than any number. -/
def max (x y : Binary32) : Binary32 :=
  if y.isNaN then x else if y.value < x.value then x else y

/-- The shortest decimal of a number in a layout. -/
def text (layout : DecimalLayout) (x : Binary32) : String :=
  layout.text .binary32 x.value.toModel.unpack

/-- The shader literal of a number. A negative one is put in parentheses. -/
def literal (x : Binary32) : String :=
  if x.value < 0 then "(" ++ x.text .shader ++ ")" else x.text .shader

end Binary32

end TensorGraph
