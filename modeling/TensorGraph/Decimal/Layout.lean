import TensorGraph.Decimal.Shortest

/-!
# TensorGraph.Decimal.Layout

How a shortest decimal is written down.

* `DecimalLayout`: where positional notation ends, whether an integral number keeps a fractional
  part, and how an exponent and a tie are treated.
* `DecimalLayout.text`: the text of a floating-point number in a layout.
-/

namespace TensorGraph

open Float.Model (Format UnpackedFloat)

/-- `plain e` says whether a number whose leading digit counts `10^e` is written without an
exponent. -/
structure DecimalLayout where
  plain : Int → Bool
  fractional : Bool
  plusSign : Bool
  tieUp : Bool

namespace DecimalLayout

/-- Positional notation of the digits `ds`, whose last one counts `10^k`. -/
def positional (layout : DecimalLayout) (ds : List Char) (k : Int) : List Char :=
  let whole := (ds.length : Int) + k
  if 0 ≤ k then
    ds ++ List.replicate k.toNat '0' ++ (if layout.fractional then ['.', '0'] else [])
  else if 0 < whole then
    ds.take whole.toNat ++ '.' :: ds.drop whole.toNat
  else
    '0' :: '.' :: List.replicate (-whole).toNat '0' ++ ds

/-- Notation with one digit before the point and the exponent `e` of that digit. -/
def scientific (layout : DecimalLayout) (ds : List Char) (e : Int) : List Char :=
  let tail := ds.drop 1
  let sign := if e < 0 then ['-'] else if layout.plusSign then ['+'] else []
  ds.take 1 ++ (if tail.isEmpty then [] else '.' :: tail) ++ 'e' :: sign ++ Nat.toDigits 10 e.natAbs

/-- The text of a decimal. -/
def decimal (layout : DecimalLayout) (d : Decimal) : List Char :=
  let ds := Nat.toDigits 10 d.digits
  let e := (ds.length : Int) + d.exponent - 1
  if layout.plain e then layout.positional ds d.exponent else layout.scientific ds e

/-- The minus sign of a negative number. -/
def sign : UnpackedFloat.Sign → List Char
  | .negative => ['-']
  | .positive => []

/-- The text of a number of the format `f`. -/
def text (layout : DecimalLayout) (f : Format) : UnpackedFloat → String
  | .notANumber => "NaN"
  | .infinity s => .ofList (sign s ++ ['i', 'n', 'f'])
  | .zero s => .ofList (sign s ++ layout.positional ['0'] 0)
  | .finite s m e _ => .ofList (sign s ++ layout.decimal (shortestDecimal f layout.tieUp m e))

/-- Messages: no exponent, and no fractional part on an integral number. -/
def message : DecimalLayout := ⟨fun _ => true, false, false, true⟩

/-- Shader literals: an exponent from `1e16` on and below `1e-4`, and always a point or an
exponent. -/
def shader : DecimalLayout := ⟨fun e => -4 ≤ e && e < 16, true, false, true⟩

/-- JSON numbers of binary64: an exponent from `1e+16` on and below `1e-5`. -/
def json64 : DecimalLayout := ⟨fun e => -5 ≤ e && e < 16, true, true, false⟩

/-- JSON numbers of binary32: an exponent from `1e+13` on and below `1e-6`. -/
def json32 : DecimalLayout := ⟨fun e => -6 ≤ e && e < 13, true, true, false⟩

end DecimalLayout

end TensorGraph
