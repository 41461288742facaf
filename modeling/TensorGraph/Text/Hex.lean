/-!
# TensorGraph.Text.Hex

Bytes and words in hexadecimal digits, in lower case.
-/

namespace TensorGraph.Text

/-- The digit of a number below sixteen. -/
def hexDigit (n : Nat) : Char := "0123456789abcdef".toList.getD n '0'

/-- The last `count` hexadecimal digits of a number. -/
def hexDigits : Nat → Nat → List Char
  | 0, _ => []
  | count + 1, n => hexDigits count (n / 16) ++ [hexDigit (n % 16)]

/-- Two digits for every byte. -/
def hexBytes (bytes : List UInt8) : String :=
  .ofList (bytes.flatMap fun b => hexDigits 2 b.toNat)

end TensorGraph.Text
