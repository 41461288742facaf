import TensorGraph.Json.Value
import TensorGraph.Text.Hex

/-!
# TensorGraph.Json.Printer

The text of JSON documents.

* `Json.quoted`: a string between quotes.
* `Json.Value.pretty`: one member or element a line, indented by two blanks a level.
* `Json.Value.compact`: no blanks at all.
-/

namespace TensorGraph.Json

/-- How a character is written inside a string. -/
def escaped (c : Char) : List Char :=
  if c = '"' then ['\\', '"']
  else if c = '\\' then ['\\', '\\']
  else if c = '\n' then ['\\', 'n']
  else if c = '\t' then ['\\', 't']
  else if c = '\r' then ['\\', 'r']
  else if c = '\x08' then ['\\', 'b']
  else if c = '\x0c' then ['\\', 'f']
  else if c < ' ' then ['\\', 'u'] ++ Text.hexDigits 4 c.toNat
  else [c]

def quoted (s : List Char) : List Char :=
  '"' :: s.flatMap escaped ++ ['"']

namespace Number

/-- The digits of a number; one that is not finite has no JSON form and becomes `null`. -/
def floatText (layout : DecimalLayout) (f : Float.Model.Format) :
    Float.Model.UnpackedFloat → List Char
  | .notANumber => "null".toList
  | .infinity _ => "null".toList
  | u => (layout.text f u).toList

def text : Number → List Char
  | .integer (.ofNat n) => Nat.toDigits 10 n
  | .integer (.negSucc n) => '-' :: Nat.toDigits 10 (n + 1)
  | .float x => floatText .json64 .binary64 x.toModel.unpack
  | .single x => floatText .json32 .binary32 x.value.toModel.unpack

end Number

/-- A new line with the indentation of a level. -/
def newLine (level : Nat) : List Char := '\n' :: List.replicate (2 * level) ' '

/-- Items between delimiters, each on a line of its own one level further in. -/
def framed (opening closing : Char) (level : Nat) : List (List Char) → List Char
  | [] => [opening, closing]
  | items =>
    opening :: newLine (level + 1) ++ List.intercalate (',' :: newLine (level + 1)) items ++
      newLine level ++ [closing]

/-- Items between delimiters on one line. -/
def packed (opening closing : Char) (items : List (List Char)) : List Char :=
  opening :: List.intercalate [','] items ++ [closing]

namespace Value

mutual

/-- The text of a value that stands `level` levels deep. -/
def prettyAt (level : Nat) : Value → List Char
  | .null => "null".toList
  | .boolean b => (if b then "true" else "false").toList
  | .number n => n.text
  | .string s => quoted s.toList
  | .array items => framed '[' ']' level (prettyItems (level + 1) items)
  | .object members => framed '\x7b' '\x7d' level (prettyMembers (level + 1) members)

def prettyItems (level : Nat) : List Value → List (List Char)
  | [] => []
  | v :: rest => prettyAt level v :: prettyItems level rest

def prettyMembers (level : Nat) : List (String × Value) → List (List Char)
  | [] => []
  | (key, v) :: rest =>
    (quoted key.toList ++ ':' :: ' ' :: prettyAt level v) :: prettyMembers level rest

end

def pretty (v : Value) : String := .ofList (prettyAt 0 v)

mutual

def compactText : Value → List Char
  | .null => "null".toList
  | .boolean b => (if b then "true" else "false").toList
  | .number n => n.text
  | .string s => quoted s.toList
  | .array items => packed '[' ']' (compactItems items)
  | .object members => packed '\x7b' '\x7d' (compactMembers members)

def compactItems : List Value → List (List Char)
  | [] => []
  | v :: rest => compactText v :: compactItems rest

def compactMembers : List (String × Value) → List (List Char)
  | [] => []
  | (key, v) :: rest => (quoted key.toList ++ ':' :: compactText v) :: compactMembers rest

end

def compact (v : Value) : String := .ofList (compactText v)

end Value

end TensorGraph.Json
