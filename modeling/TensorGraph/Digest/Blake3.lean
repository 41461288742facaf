import TensorGraph.Digest.Word

/-!
# TensorGraph.Digest.Blake3

The BLAKE3 digest, unkeyed and 32 bytes long.

* `Blake3.compress`: the compression function on one block.
* `Blake3.Node`: a chunk or a parent of the tree, all but its last compression done.
* `Blake3.digest`: the digest of a byte string.

A chunk is 1024 bytes, a block 64 bytes and a word 4 bytes, the least significant first.
-/

namespace TensorGraph.Blake3

open Digest (wordAt wordBytes)

/-- Eight words that stand for everything compressed so far. -/
abbrev ChainingValue := Vector UInt32 8

abbrev Block := Vector UInt32 16

def initial : ChainingValue := #v[
  0x6a09e667, 0xbb67ae85, 0x3c6ef372, 0xa54ff53a,
  0x510e527f, 0x9b05688c, 0x1f83d9ab, 0x5be0cd19]

/-- Where each word of a block goes between two rounds. -/
def permutation : Vector (Fin 16) 16 := #v[
  2, 6, 3, 10, 7, 0, 4, 13, 1, 11, 12, 5, 9, 14, 15, 8]

def permute (block : Block) : Block := permutation.map fun i => block[i]

/-- What a compression is for, as bits of one word. -/
structure Role where
  chunkStart : Bool
  chunkEnd : Bool
  parent : Bool
  root : Bool

def Role.bits (r : Role) : UInt32 :=
  r.chunkStart.toUInt32 ||| r.chunkEnd.toUInt32 <<< 1 ||| r.parent.toUInt32 <<< 2 |||
    r.root.toUInt32 <<< 3

def rotateRight (w count : UInt32) : UInt32 := w >>> count ||| w <<< (32 - count)

/-- Mixes two message words into four words of the state. -/
def mix (s : Block) (a b c d : Fin 16) (x y : UInt32) : Block :=
  let s := s.set a (s[a] + s[b] + x)
  let s := s.set d (rotateRight (s[d] ^^^ s[a]) 16)
  let s := s.set c (s[c] + s[d])
  let s := s.set b (rotateRight (s[b] ^^^ s[c]) 12)
  let s := s.set a (s[a] + s[b] + y)
  let s := s.set d (rotateRight (s[d] ^^^ s[a]) 8)
  let s := s.set c (s[c] + s[d])
  s.set b (rotateRight (s[b] ^^^ s[c]) 7)

/-- Mixes the columns of the state, then its diagonals. -/
def round (s m : Block) : Block :=
  let s := mix s 0 4 8 12 m[0] m[1]
  let s := mix s 1 5 9 13 m[2] m[3]
  let s := mix s 2 6 10 14 m[4] m[5]
  let s := mix s 3 7 11 15 m[6] m[7]
  let s := mix s 0 5 10 15 m[8] m[9]
  let s := mix s 1 6 11 12 m[10] m[11]
  let s := mix s 2 7 8 13 m[12] m[13]
  mix s 3 4 9 14 m[14] m[15]

/-- Rounds with the message permuted in between. -/
def rounds : Nat → Block → Block → Block
  | 0, s, _ => s
  | n + 1, s, m => rounds n (round s m) (permute m)

/-- Compresses a block of `length` bytes, the first half of the result. -/
def compress (cv : ChainingValue) (m : Block) (counter length : Nat) (role : Role) :
    ChainingValue :=
  let tail : Vector UInt32 4 := #v[
    .ofNat counter, .ofNat (counter >>> 32), .ofNat length, role.bits]
  let s := rounds 7 (cv ++ initial.take 4 ++ tail) m
  .ofFn fun i : Fin 8 => s[i.val] ^^^ s[i.val + 8]

def blockOf (bytes : List UInt8) : Block :=
  let bytes := bytes.toArray
  .ofFn fun i : Fin 16 => wordAt bytes (4 * i.val)

/-- The arguments of a node's last compression. As the root it is compressed in another role than
inside the tree. -/
structure Node where
  cv : ChainingValue
  block : Block
  counter : Nat
  length : Nat
  role : Role

namespace Node

def chainingValue (n : Node) : ChainingValue :=
  compress n.cv n.block n.counter n.length n.role

/-- The digest of a tree with this root. -/
def rootDigest (n : Node) : ChainingValue :=
  compress n.cv n.block 0 n.length { n.role with root := true }

/-- The node above two nodes. -/
def parent (left right : Node) : Node :=
  { cv := initial
    block := left.chainingValue ++ right.chainingValue
    counter := 0
    length := 64
    role := ⟨false, false, true, false⟩ }

end Node

/-- Pieces of `size` bytes, the last one possibly shorter. Nothing at all is one empty piece. -/
def pieces (size : Nat) (bytes : List UInt8) : List (List UInt8) :=
  if size = 0 ∨ bytes.length ≤ size then [bytes]
  else bytes.take size :: pieces size (bytes.drop size)
  termination_by bytes.length
  decreasing_by simp only [List.length_drop]; omega

/-- Compresses all blocks of a chunk but the last one. -/
def chunkNode (counter : Nat) (cv : ChainingValue) (first : Bool) : List (List UInt8) → Node
  | [] => ⟨cv, blockOf [], counter, 0, ⟨first, true, false, false⟩⟩
  | [last] => ⟨cv, blockOf last, counter, last.length, ⟨first, true, false, false⟩⟩
  | b :: rest =>
    chunkNode counter (compress cv (blockOf b) counter b.length ⟨first, false, false, false⟩)
      false rest

/-- Puts a parent above every two neighbours. A node without a neighbour stays. -/
def pairUp : List Node → List Node
  | left :: right :: rest => .parent left right :: pairUp rest
  | rest => rest

theorem length_pairUp_le (ns : List Node) : (pairUp ns).length ≤ ns.length := by
  fun_induction pairUp ns with
  | case1 left right rest ih => simp only [List.length_cons]; omega
  | case2 => exact Nat.le_refl _

/-- Pairs up nodes, level by level, until one is left. Left subtrees are full this way. -/
def root (first : Node) : List Node → Node
  | [] => first
  | second :: rest =>
    root (.parent first second) (pairUp rest)
  termination_by rest => rest.length
  decreasing_by have := length_pairUp_le rest; simp only [List.length_cons]; omega

/-- The digest of a byte string. -/
def digest (bytes : List UInt8) : List UInt8 :=
  let nodes := (pieces 1024 bytes).mapIdx fun i chunk =>
    chunkNode i initial true (pieces 64 chunk)
  match nodes with
  | [] => []
  | first :: rest => (root first rest).rootDigest.toList.flatMap wordBytes

end TensorGraph.Blake3
