/-!
# TensorGraph.Tensor.Shape

Extents of tensors, and their elements in row-major order.

* `Shape.size`: the number of elements.
* `Shape.inner`: the distance between neighbours along an axis.
* `Shape.text`: the form in messages and listings, `[2, 3]`.
* `grid4`: the positions of a four-dimensional grid in row-major order.
-/

namespace TensorGraph

abbrev Shape := List Nat

/-- A list as text, its items between brackets. -/
def bracketed (items : List String) : String :=
  "[" ++ ", ".intercalate items ++ "]"

namespace Shape

/-- The exact number of elements. `Guarded.count` is the product as it is taken in words. -/
def size (s : Shape) : Nat := s.foldr (· * ·) 1

/-- Number of elements behind one step along `axis`. -/
def inner (s : Shape) (axis : Nat) : Nat := size (s.drop (axis + 1))

def text (s : Shape) : String := bracketed (s.map Nat.repr)

@[simp] theorem size_nil : size [] = 1 := rfl

@[simp] theorem size_cons (d : Nat) (s : Shape) : size (d :: s) = d * size s := rfl

end Shape

/-- Batch, channels, height and width of an image tensor. -/
structure ImageShape where
  batch : Nat
  channels : Nat
  height : Nat
  width : Nat
  deriving DecidableEq

namespace ImageShape

def ofShape? : Shape → Option ImageShape
  | [n, c, h, w] => some ⟨n, c, h, w⟩
  | _ => none

def toShape (s : ImageShape) : Shape := [s.batch, s.channels, s.height, s.width]

end ImageShape

/-- The positions of a grid, the last coordinate running fastest. -/
def grid4 (a b c d : Nat) : List (Nat × Nat × Nat × Nat) :=
  (List.range a).flatMap fun i =>
    (List.range b).flatMap fun j =>
      (List.range c).flatMap fun k =>
        (List.range d).map fun l => (i, j, k, l)

/-- Row-major index of a position in a grid whose last three extents are `b`, `c` and `d`. -/
def flatIndex (b c d : Nat) : Nat × Nat × Nat × Nat → Nat
  | (i, j, k, l) => ((i * b + j) * c + k) * d + l

end TensorGraph
