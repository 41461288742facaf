/-!
# TensorGraph.Digest.Word

Words of 32 bits as four bytes, the least significant first.
-/

namespace TensorGraph.Digest

def wordBytes (w : UInt32) : List UInt8 :=
  [w.toUInt8, (w >>> 8).toUInt8, (w >>> 16).toUInt8, (w >>> 24).toUInt8]

def wordOfBytes (a b c d : UInt8) : UInt32 :=
  a.toUInt32 ||| b.toUInt32 <<< 8 ||| c.toUInt32 <<< 16 ||| d.toUInt32 <<< 24

/-- The word whose bytes start at `i`; bytes past the end are zero. -/
def wordAt (bytes : Array UInt8) (i : Nat) : UInt32 :=
  let byte (k : Nat) : UInt8 := bytes.getD (i + k) 0
  wordOfBytes (byte 0) (byte 1) (byte 2) (byte 3)

@[simp] theorem length_wordBytes (w : UInt32) : (wordBytes w).length = 4 := rfl

end TensorGraph.Digest
