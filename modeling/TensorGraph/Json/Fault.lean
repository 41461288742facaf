import TensorGraph.Decimal.Layout
import TensorGraph.Text.Printable

/-!
# TensorGraph.Json.Fault

Why a text is not the document that was asked for.

* `Json.Fault`: the causes.
* `Json.Fault.message`: their wording, the only place that has it.
-/

namespace TensorGraph.Json

/-- What was being read when the text ended. -/
inductive Unfinished where
  | value
  | list
  | object
  | string
  deriving DecidableEq

/-- What stands where something else was wanted. -/
inductive Found where
  | null
  | boolean (b : Bool)
  | integer (i : Int)
  | float (x : Float)
  | string (s : String)
  | sequence
  | map
  deriving DecidableEq

inductive Fault where
  | ended (unfinished : Unfinished)
  | expectedValue
  | expectedWord
  | expectedColon
  | expectedCommaOrBracket
  | expectedCommaOrBrace
  | trailingComma
  | trailingCharacters
  | keyNotString
  | invalidNumber
  | numberOutOfRange
  | invalidEscape
  | controlCharacter
  | loneSurrogate
  | unpairedSurrogate
  | tooDeep
  | missingField (name : String)
  | duplicateField (name : String)
  | wrongType (found : Found) (wanted : String)
  | negative (found : Int) (wanted : String)
  | wrongLength (found : Nat) (wanted : String)
  deriving DecidableEq

namespace Unfinished

def text : Unfinished → String
  | .value => "a value"
  | .list => "a list"
  | .object => "an object"
  | .string => "a string"

end Unfinished

namespace Found

def text : Found → String
  | .null => "null"
  | .boolean b => "boolean `" ++ (if b then "true" else "false") ++ "`"
  | .integer i => "integer `" ++ toString i ++ "`"
  | .float x => "floating point `" ++ DecimalLayout.json64.text .binary64 x.toModel.unpack ++ "`"
  | .string s => "string " ++ Text.quotedText s
  | .sequence => "sequence"
  | .map => "map"

end Found

namespace Fault

def message : Fault → String
  | .ended unfinished => "EOF while parsing " ++ unfinished.text
  | .expectedValue => "expected value"
  | .expectedWord => "expected ident"
  | .expectedColon => "expected `:`"
  | .expectedCommaOrBracket => "expected `,` or `]`"
  | .expectedCommaOrBrace => "expected `,` or `\x7d`"
  | .trailingComma => "trailing comma"
  | .trailingCharacters => "trailing characters"
  | .keyNotString => "key must be a string"
  | .invalidNumber => "invalid number"
  | .numberOutOfRange => "number out of range"
  | .invalidEscape => "invalid escape"
  | .controlCharacter => "control character (\\u0000-\\u001F) found while parsing a string"
  | .loneSurrogate => "lone leading surrogate in hex escape"
  | .unpairedSurrogate => "unexpected end of hex escape"
  | .tooDeep => "recursion limit exceeded"
  | .missingField name => "missing field `" ++ name ++ "`"
  | .duplicateField name => "duplicate field `" ++ name ++ "`"
  | .wrongType found wanted => "invalid type: " ++ found.text ++ ", expected " ++ wanted
  | .negative found wanted =>
    "invalid value: integer `" ++ toString found ++ "`, expected " ++ wanted
  | .wrongLength found wanted => "invalid length " ++ found.repr ++ ", expected " ++ wanted

end Fault

end TensorGraph.Json
