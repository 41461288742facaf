import TensorGraph.Json.Fault
import TensorGraph.Json.Value

/-!
# TensorGraph.Json.Reader

Reading JSON from left to right, so that the first fault of a text is the one reported.

* `Json.Reader`: takes a value from the front of a text.
* `Json.value`: any document, with a bound on its nesting.
* `Json.sequence`, `Json.members`: arrays and objects whose content is read by another reader.
* `Json.skipValue`: passes over a value of any depth without keeping it.

Loops take the length of the remaining text as fuel; each of their rounds consumes a character.
-/

namespace TensorGraph.Json

/-- A reader of the text in front of it. After a fault, the text is left from the string or number
that has the fault, or else from the character where it was found. -/
abbrev Reader := EStateM Fault (List Char)

/-- Takes the front of the text off by a function that also gives the rest. -/
def front {β : Type} (part : List Char → Except Fault (β × List Char)) : Reader β := do
  match part (← get) with
  | .ok (x, rest) =>
    set rest
    return x
  | .error fault => throw fault

/-! ## Tokens -/

def isBlank (c : Char) : Bool := c = ' ' || c = '\n' || c = '\t' || c = '\r'

/-- The next character that is not blank, left in place. -/
def peekToken : Reader (Option Char) := do
  modify (·.dropWhile isBlank)
  return (← get).head?

def skipChar : Reader Unit := modify (·.drop 1)

/-- The rest of a word whose first character was read. -/
def word : List Char → Reader Unit
  | [] => return
  | c :: rest => do
    match (← get) with
    | [] => throw (.ended .value)
    | d :: left =>
      set left
      if c = d then word rest else throw .expectedWord

/-! ## Strings -/

def hexValue? (c : Char) : Option Nat :=
  if '0' ≤ c ∧ c ≤ '9' then some (c.toNat - '0'.toNat)
  else if 'a' ≤ c ∧ c ≤ 'f' then some (c.toNat - 'a'.toNat + 10)
  else if 'A' ≤ c ∧ c ≤ 'F' then some (c.toNat - 'A'.toNat + 10)
  else none

/-- The code unit that four hexadecimal digits stand for. -/
def codeUnit? (a b c d : Char) : Option Nat := do
  return (((← hexValue? a) * 16 + (← hexValue? b)) * 16 + (← hexValue? c)) * 16 + (← hexValue? d)

def isLeadingSurrogate (n : Nat) : Bool := 0xD800 ≤ n && n ≤ 0xDBFF

def isTrailingSurrogate (n : Nat) : Bool := 0xDC00 ≤ n && n ≤ 0xDFFF

/-- The character that a pair of surrogates stands for. -/
def surrogatePair (n m : Nat) : Char := .ofNat ((n - 0xD800) * 0x400 + (m - 0xDC00) + 0x10000)

def simpleEscape? (c : Char) : Option Char :=
  if c = '"' || c = '\\' || c = '/' then some c
  else if c = 'b' then some '\x08'
  else if c = 'f' then some '\x0c'
  else if c = 'n' then some '\n'
  else if c = 'r' then some '\r'
  else if c = 't' then some '\t'
  else none

/-- What is wrong with a numeric escape that fewer than four characters are left for: the digits
count in bytes. -/
def shortEscape (left : List Char) : Fault :=
  if 4 ≤ (left.map Char.utf8Size).foldr (· + ·) 0 then .invalidEscape else .ended .string

/-- What is wrong with the text after a leading surrogate that no numeric escape follows. -/
def missingPair : List Char → Fault
  | [] => .ended .string
  | ['\\'] => .ended .string
  | '\\' :: 'u' :: left => shortEscape left
  | _ => .unpairedSurrogate

/-- A string up to its closing quote. -/
def stringBody : List Char → Except Fault (List Char × List Char)
  | [] => .error (.ended .string)
  | '"' :: rest => .ok ([], rest)
  | '\\' :: 'u' :: a :: b :: c :: d :: rest =>
    match codeUnit? a b c d with
    | none => .error .invalidEscape
    | some n =>
      if isTrailingSurrogate n then .error .loneSurrogate
      else if isLeadingSurrogate n then
        match rest with
        | '\\' :: 'u' :: a' :: b' :: c' :: d' :: rest' =>
          match codeUnit? a' b' c' d' with
          | none => .error .invalidEscape
          | some m =>
            if isTrailingSurrogate m then
              (stringBody rest').map fun (s, left) => (surrogatePair n m :: s, left)
            else .error .loneSurrogate
        | other => .error (missingPair other)
      else (stringBody rest).map fun (s, left) => (.ofNat n :: s, left)
  | '\\' :: 'u' :: short => .error (shortEscape short)
  | '\\' :: e :: rest =>
    match simpleEscape? e with
    | some c => (stringBody rest).map fun (s, left) => (c :: s, left)
    | none => .error .invalidEscape
  | ['\\'] => .error (.ended .string)
  | c :: rest =>
    if c < ' ' then .error .controlCharacter
    else (stringBody rest).map fun (s, left) => (c :: s, left)

/-- Passes over a string. Its numeric escapes need digits, but need not form characters. -/
def skipStringBody : List Char → Except Fault (Unit × List Char)
  | [] => .error (.ended .string)
  | '"' :: rest => .ok ((), rest)
  | '\\' :: 'u' :: a :: b :: c :: d :: rest =>
    match codeUnit? a b c d with
    | none => .error .invalidEscape
    | some _ => skipStringBody rest
  | '\\' :: 'u' :: short => .error (shortEscape short)
  | '\\' :: e :: rest =>
    if (simpleEscape? e).isSome then skipStringBody rest else .error .invalidEscape
  | ['\\'] => .error (.ended .string)
  | c :: rest => if c < ' ' then .error .controlCharacter else skipStringBody rest

/-- A string whose opening quote is the next character. -/
def stringToken : Reader String := do
  skipChar
  let s ← front stringBody
  return .ofList s

def skipString : Reader Unit := do
  skipChar
  front skipStringBody

/-! ## Numbers -/

def isDigit (c : Char) : Bool := '0' ≤ c && c ≤ '9'

def digitValue (c : Char) : Nat := c.toNat - '0'.toNat

/-- Appends decimal digits to a significand while it fits 64 bits; also how many fitted. -/
def appendDigits (significand : Nat) : List Char → Nat × Nat
  | [] => (significand, 0)
  | c :: rest =>
    let next := significand * 10 + digitValue c
    if next < 0x10000000000000000 then
      let (s, taken) := appendDigits next rest
      (s, taken + 1)
    else (significand, 0)

/-- `x · 10^exponent`, computed in binary64 with steps of at most 308 powers of ten. From
`x < 2^64`, three steps down reach zero. -/
def scale (x : Float) (exponent : Int) : Nat → Except Fault Float
  | 0 => .ok 0
  | steps + 1 =>
    if exponent.natAbs ≤ 308 then
      let power := Float.ofScientific 1 false exponent.natAbs
      if 0 ≤ exponent then
        let y := x * power
        if y.isInf then .error .numberOutOfRange else .ok y
      else .ok (x / power)
    else if x == 0 then .ok x
    else if 0 ≤ exponent then .error .numberOutOfRange
    else scale (x / 1e308) (exponent + 308) steps

/-- The binary64 number `± significand · 10^exponent`. -/
def floatOf (negative : Bool) (significand : Nat) (exponent : Int) : Except Fault Number := do
  let x ← scale (Float.ofNat significand) exponent 4
  return .float (if negative then -x else x)

/-- An integer, or a floating-point number if it is beyond 64 bits or a negative zero. -/
def integerOf (negative : Bool) (significand : Nat) : Number :=
  if !negative then .integer significand
  else if significand = 0 || 0x8000000000000000 < significand then
    .float (-(Float.ofNat significand))
  else .integer (-(significand : Int))

/-- What is wrong when a digit is missing at the front of `left`. -/
def missingDigit : List Char → Fault
  | [] => .ended .value
  | _ => .invalidNumber

/-- Splits the leading digits off; there has to be one. -/
def digits1 (text : List Char) : Except Fault (List Char × List Char) :=
  let ds := text.takeWhile isDigit
  if ds.isEmpty then .error (missingDigit text) else .ok (ds, text.dropWhile isDigit)

/-- The digits before the point: a leading zero stands alone. -/
def wholeDigits (text : List Char) : Except Fault (List Char × List Char) := do
  let (ds, rest) ← digits1 text
  match ds with
  | '0' :: _ :: _ => throw .invalidNumber
  | _ => return (ds, rest)

/-- The digits after a point, if one follows. -/
def fractionDigits? : List Char → Except Fault (Option (List Char) × List Char)
  | '.' :: rest => do
    let (ds, rest) ← digits1 rest
    return (some ds, rest)
  | rest => return (none, rest)

def isExponentMark (c : Char) : Bool := c = 'e' || c = 'E'

/-- The sign of an exponent: whether it is negative, and the text after it. -/
def exponentSign : List Char → Bool × List Char
  | '+' :: rest => (false, rest)
  | '-' :: rest => (true, rest)
  | rest => (false, rest)

/-- The exponent, if a mark follows. -/
def exponent? : List Char → Except Fault (Option Int × List Char)
  | [] => return (none, [])
  | c :: rest =>
    if isExponentMark c then do
      let (negative, rest) := exponentSign rest
      let (ds, rest) ← digits1 rest
      let n := ds.foldl (fun n d => n * 10 + digitValue d) 0
      return (some (if negative then -(n : Int) else n), rest)
    else return (none, c :: rest)

/-- A number as it is written, without its sign. -/
structure Numeral where
  whole : List Char
  fraction : Option (List Char)
  exponent : Option Int

def numeral (text : List Char) : Except Fault (Numeral × List Char) := do
  let (whole, rest) ← wholeDigits text
  let (fraction, rest) ← fractionDigits? rest
  let (exponent, rest) ← exponent? rest
  return ({ whole, fraction, exponent }, rest)

/-- The number that a numeral stands for. Digits that no longer fit the significand scale it when
they stand before the point, and are dropped behind it. -/
def Numeral.number (n : Numeral) (negative : Bool) : Except Fault Number :=
  let (significand, taken) := appendDigits 0 n.whole
  let skipped := n.whole.length - taken
  if n.fraction.isNone && n.exponent.isNone && skipped = 0 then
    .ok (integerOf negative significand)
  else
    let (significand, places) := appendDigits significand (n.fraction.getD [])
    floatOf negative significand ((skipped : Int) - places + n.exponent.getD 0)

/-- Whether a minus sign was taken off. -/
def minus : Reader Bool := do
  match (← get) with
  | '-' :: rest =>
    set rest
    return true
  | _ => return false

/-- A number whose first character, a digit or a minus sign, is the next one. -/
def numberToken : Reader Number := do
  let negative ← minus
  let n ← front numeral
  match n.number negative with
  | .ok x => return x
  | .error fault => throw fault

/-- Checks the form of a number that is not kept. A missing digit is a fault of the number even
at the end of the text. -/
def skipNumber : Reader Unit := do
  discard minus
  match numeral (← get) with
  | .ok (_, rest) => set rest
  | .error _ => throw .invalidNumber

/-! ## Arrays and objects -/

/-- Whether another element follows in an array. -/
def moreElements (first : Bool) : Reader Bool := do
  match (← peekToken) with
  | none => throw (.ended .list)
  | some ']' => return false
  | some c =>
    if first then return true
    if c ≠ ',' then throw .expectedCommaOrBracket
    skipChar
    match (← peekToken) with
    | none => throw (.ended .value)
    | some ']' => throw .trailingComma
    | some _ => return true

/-- The end of an array, after its last expected element. -/
def endSequence : Reader Unit := do
  match (← peekToken) with
  | some ']' => skipChar
  | some ',' => do
    skipChar
    match (← peekToken) with
    | some ']' => throw .trailingComma
    | _ => throw .trailingCharacters
  | some _ => throw .trailingCharacters
  | none => throw (.ended .list)

def elements {β : Type} (item : Reader β) : Nat → Bool → Reader (List β)
  | 0, _ => throw (.ended .list)
  | fuel + 1, first => do
    if (← moreElements first) then
      let x ← item
      let xs ← elements item fuel false
      return x :: xs
    else return []

/-- An array whose opening bracket is the next character. -/
def sequence {β : Type} (item : Reader β) : Reader (List β) := do
  skipChar
  let fuel := (← get).length + 1
  let xs ← elements item fuel true
  endSequence
  return xs

/-- The key of the next member of an object, if another one follows. -/
def nextKey? (first : Bool) : Reader (Option String) := do
  let next ← match (← peekToken) with
    | none => throw (.ended .object)
    | some '\x7d' => return none
    | some c =>
      if first then pure (some c)
      else if c = ',' then do
        skipChar
        peekToken
      else throw .expectedCommaOrBrace
  match next with
  | some '"' => some <$> stringToken
  | some '\x7d' => throw .trailingComma
  | some _ => throw .keyNotString
  | none => throw (.ended .value)

def colon : Reader Unit := do
  match (← peekToken) with
  | some ':' => skipChar
  | some _ => throw .expectedColon
  | none => throw (.ended .object)

/-- The end of an object, after its last member. -/
def endObject : Reader Unit := do
  match (← peekToken) with
  | some '\x7d' => skipChar
  | some ',' => throw .trailingComma
  | some _ => throw .trailingCharacters
  | none => throw (.ended .object)

def membersFrom {σ : Type} (member : String → σ → Reader σ) : Nat → Bool → σ → Reader σ
  | 0, _, _ => throw (.ended .object)
  | fuel + 1, first, acc => do
    match (← nextKey? first) with
    | none => return acc
    | some key =>
      let acc ← member key acc
      membersFrom member fuel false acc

/-- An object whose opening brace is the next character. `member` is called after each key and
reads the colon and the value. -/
def members {σ : Type} (member : String → σ → Reader σ) (start : σ) : Reader σ := do
  skipChar
  let fuel := (← get).length + 1
  let acc ← membersFrom member fuel true start
  endObject
  return acc

/-! ## Whole values -/

/-- A value that is not nested, or a nested one by `nested`; without `nested` the text is too
deep. -/
def valueWith (nested : Option (Reader Value)) : Reader Value := do
  match (← peekToken) with
  | none => throw (.ended .value)
  | some c =>
    if c = 'n' then do
      skipChar
      word ['u', 'l', 'l']
      return .null
    else if c = 't' then do
      skipChar
      word ['r', 'u', 'e']
      return .boolean true
    else if c = 'f' then do
      skipChar
      word ['a', 'l', 's', 'e']
      return .boolean false
    else if c = '-' || isDigit c then .number <$> numberToken
    else if c = '"' then .string <$> stringToken
    else if c = '[' then
      match nested with
      | none => throw .tooDeep
      | some item => .array <$> sequence item
    else if c = '\x7b' then
      match nested with
      | none => throw .tooDeep
      | some item =>
        .object <$> members (fun key acc => do
          colon
          let v ← item
          return Members.insert key v acc) []
    else throw .expectedValue

/-- A value with at most `depth` levels of arrays and objects. -/
def value : Nat → Reader Value
  | 0 => valueWith none
  | depth + 1 => valueWith (some (value depth))

/-- Levels of nesting that a document may have. -/
def depthLimit : Nat := 127

/-! ## Values that are not kept -/

inductive Frame where
  | list
  | object
  deriving DecidableEq

def Frame.unfinished : Frame → Unfinished
  | .list => .list
  | .object => .object

def skipKey : Reader Unit := do
  match (← peekToken) with
  | some '"' => skipString
  | some _ => throw .keyNotString
  | none => throw (.ended .object)
  colon

mutual

/-- Passes over the next value and over what remains of the arrays and objects around it. -/
def skipNested : Nat → List Frame → Reader Unit
  | 0, _ => throw (.ended .value)
  | fuel + 1, frames => do
    match (← peekToken) with
    | none => throw (.ended .value)
    | some c =>
      if c = '[' then do
        skipChar
        skipRest fuel false (.list :: frames)
      else if c = '\x7b' then do
        skipChar
        skipRest fuel false (.object :: frames)
      else
        if c = 'n' then do
          skipChar
          word ['u', 'l', 'l']
        else if c = 't' then do
          skipChar
          word ['r', 'u', 'e']
        else if c = 'f' then do
          skipChar
          word ['a', 'l', 's', 'e']
        else if c = '-' || isDigit c then skipNumber
        else if c = '"' then skipString
        else throw .expectedValue
        skipRest fuel true frames

/-- Passes over what follows an element (`after`) or an opening bracket. -/
def skipRest : Nat → Bool → List Frame → Reader Unit
  | _, _, [] => return
  | 0, _, _ => throw (.ended .value)
  | fuel + 1, after, frame :: outer => do
    match (← peekToken) with
    | none => throw (.ended frame.unfinished)
    | some c =>
      if c = ']' ∧ frame = .list ∨ c = '\x7d' ∧ frame = .object then do
        skipChar
        skipRest fuel true outer
      else do
        if after then
          if c = ',' then skipChar
          else if frame = .list then throw .expectedCommaOrBracket
          else throw .expectedCommaOrBrace
        if frame = .object then skipKey
        skipNested fuel (frame :: outer)

end

/-- Passes over one value, however deep it is. -/
def skipValue : Reader Unit := do
  let fuel := 2 * (← get).length + 2
  skipNested fuel []

/-! ## Values of a known type -/

/-- The fault of finding something else than `wanted`. What is found is read as far as the
message shows it. -/
def unexpected {β : Type} (wanted : String) : Reader β := do
  match (← peekToken) with
  | none => throw (.ended .value)
  | some c =>
    if c = 'n' then do
      skipChar
      word ['u', 'l', 'l']
      throw (.wrongType .null wanted)
    else if c = 't' then do
      skipChar
      word ['r', 'u', 'e']
      throw (.wrongType (.boolean true) wanted)
    else if c = 'f' then do
      skipChar
      word ['a', 'l', 's', 'e']
      throw (.wrongType (.boolean false) wanted)
    else if c = '-' || isDigit c then do
      match (← numberToken) with
      | .integer i => throw (.wrongType (.integer i) wanted)
      | .float x => throw (.wrongType (.float x) wanted)
      | .single _ => throw (.wrongType .null wanted)
    else if c = '"' then do
      let s ← stringToken
      throw (.wrongType (.string s) wanted)
    else if c = '[' then throw (.wrongType .sequence wanted)
    else if c = '\x7b' then throw (.wrongType .map wanted)
    else throw .expectedValue

def text : Reader String := do
  match (← peekToken) with
  | some '"' => stringToken
  | _ => unexpected "a string"

def listOf {β : Type} (item : Reader β) : Reader (List β) := do
  match (← peekToken) with
  | some '[' => sequence item
  | _ => unexpected "a sequence"

/-- `null` as `none`. -/
def optional {β : Type} (item : Reader β) : Reader (Option β) := do
  match (← peekToken) with
  | some 'n' => do
    skipChar
    word ['u', 'l', 'l']
    return none
  | _ => some <$> item

/-- A number; `wanted` names what it is read for. -/
def number (wanted : String) : Reader Number := do
  match (← peekToken) with
  | some c => if c = '-' || isDigit c then numberToken else unexpected wanted
  | none => unexpected wanted

def natural : Reader Nat := do
  match (← number "usize") with
  | .integer (.ofNat n) => return n
  | .integer i => throw (.negative i "usize")
  | .float x => throw (.wrongType (.float x) "usize")
  | .single _ => throw (.wrongType .null "usize")

/-- An object with any members, of at most `depth` levels inside. -/
def object (depth : Nat) : Reader Members := do
  match (← peekToken) with
  | some '\x7b' =>
    members (fun key acc => do
      colon
      let v ← value depth
      return Members.insert key v acc) []
  | _ => unexpected "a map"

/-- A value that the text has to end after. -/
def document {β : Type} (reader : Reader β) : Reader β := do
  let x ← reader
  match (← peekToken) with
  | none => return x
  | some _ => throw .trailingCharacters

def readAll {β : Type} (reader : Reader β) (source : String) : Except Fault β :=
  match (document reader).run source.toList with
  | .ok x _ => .ok x
  | .error fault _ => .error fault

/-- The column of a fault in a text of one line, where `rest` was left: the next character, or the
last one read if there is no next one or a number is too great. Columns count bytes. -/
def columnOf (source : String) (fault : Fault) (rest : List Char) : Nat :=
  let size := source.utf8ByteSize
  let read := size - (String.ofList rest).utf8ByteSize
  if fault = .numberOutOfRange then read else min (read + 1) size

end TensorGraph.Json
