import TensorGraph.Binary32
import TensorGraph.Digest.Word
import TensorGraph.Graph.Basic

/-!
# TensorGraph.Lowering.Weights

The constants of a graph in one buffer.

* `WeightBuffer.pack`: constants back to back in the order of their first use, then constant
  outputs that no operator reads.
* `WeightBuffer.bytes`: the buffer as little-endian binary32 words.

Offsets and lengths of entries count bytes, four to an element.
-/

namespace TensorGraph

/-- Where a constant lies in the buffer. -/
structure WeightEntry where
  id : VariableId
  offset : Nat
  length : Nat
  deriving DecidableEq

/-- Where a constant starts, in elements. -/
def WeightEntry.start (e : WeightEntry) : Nat := e.offset / 4

structure WeightBuffer (α : Type) where
  entries : List WeightEntry
  data : List α

namespace WeightBuffer

variable {α : Type}

def empty : WeightBuffer α := ⟨[], []⟩

/-- Appends a constant. -/
def append (b : WeightBuffer α) (v : VariableId) (values : Array α) : WeightBuffer α :=
  { entries := b.entries ++
      [{ id := v, offset := 4 * b.data.length, length := 4 * values.size }]
    data := b.data ++ values.toList }

/-- Appends the constants among `vs`, each where it is met first. -/
def appendNew (g : Graph α) : WeightBuffer α → List VariableId → List VariableId → WeightBuffer α
  | b, _, [] => b
  | b, seen, v :: rest =>
    match g.payload? v with
    | none => appendNew g b seen rest
    | some values =>
      if seen.contains v then appendNew g b seen rest
      else appendNew g (b.append v values) (v :: seen) rest

/-- The operands of an operator. -/
def operandsOf (g : Graph α) (o : OperatorId) : List VariableId :=
  match g.operatorAt? o with
  | some op => op.inputs
  | none => []

/-- All constants that operators in the given order read, then constant outputs. -/
def pack (g : Graph α) (order : List OperatorId) : WeightBuffer α :=
  appendNew g .empty [] (order.flatMap (operandsOf g) ++ g.outputs)

def byteLength (b : WeightBuffer α) : Nat := 4 * b.data.length

def isEmpty (b : WeightBuffer α) : Bool := b.data.isEmpty

/-- The entry of a constant. -/
def entry? (b : WeightBuffer α) (v : VariableId) : Option WeightEntry :=
  b.entries.find? (·.id = v)

/-- The entry of the constant with this id as its text. -/
def entryOfText? (b : WeightBuffer α) (text : String) : Option WeightEntry :=
  b.entries.find? (·.id.text = text)

/-- The packed values of an entry. -/
def values (b : WeightBuffer α) (e : WeightEntry) : List α :=
  (b.data.drop e.start).take (e.length / 4)

def bytes (b : WeightBuffer Binary32) : List UInt8 :=
  b.data.flatMap fun x => Digest.wordBytes x.bits

end WeightBuffer

end TensorGraph
