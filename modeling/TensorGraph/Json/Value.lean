import TensorGraph.Binary32

/-!
# TensorGraph.Json.Value

JSON documents as data.

* `Json.Value`: a document. The members of an object keep their order.
* `Json.Members.insert`: adds a member to an object whose keys are sorted, the last one of a name
  winning.
-/

namespace TensorGraph.Json

/-- A number. Reading gives integers that fit a word of 64 bits, signed or not, and binary64
numbers; `single` is for printing only. -/
inductive Number where
  | integer (i : Int)
  | float (x : Float)
  | single (x : Binary32)
  deriving DecidableEq

inductive Value where
  | null
  | boolean (b : Bool)
  | number (n : Number)
  | string (s : String)
  | array (items : List Value)
  | object (members : List (String × Value))

mutual

/-- Whether two documents are the same, members in the same order. -/
def Value.same : Value → Value → Bool
  | .null, .null => true
  | .boolean a, .boolean b => a == b
  | .number a, .number b => a == b
  | .string a, .string b => a == b
  | .array a, .array b => Value.sameItems a b
  | .object a, .object b => Value.sameMembers a b
  | _, _ => false

def Value.sameItems : List Value → List Value → Bool
  | [], [] => true
  | v :: rest, w :: other => v.same w && Value.sameItems rest other
  | _, _ => false

def Value.sameMembers : List (String × Value) → List (String × Value) → Bool
  | [], [] => true
  | (key, v) :: rest, (name, w) :: other =>
    key == name && v.same w && Value.sameMembers rest other
  | _, _ => false

end

instance : BEq Value := ⟨Value.same⟩

/-- The members of an object. -/
abbrev Members := List (String × Value)

namespace Members

/-- The value of a key. -/
def get? (m : Members) (key : String) : Option Value := m.lookup key

/-- Adds a member in the order of the keys, or replaces the one of that name. -/
def insert (key : String) (v : Value) : Members → Members
  | [] => [(key, v)]
  | (k, w) :: rest =>
    if key < k then (key, v) :: (k, w) :: rest
    else if key = k then (key, v) :: rest
    else (k, w) :: insert key v rest

end Members

namespace Value

def nat (n : Nat) : Value := .number (.integer n)

def nats (ns : List Nat) : Value := .array (ns.map nat)

def strings (ss : List String) : Value := .array (ss.map .string)

/-- The value as a natural number. Floating-point numbers are none, whatever they are equal to. -/
def nat? : Value → Option Nat
  | .number (.integer (.ofNat n)) => some n
  | _ => none

/-- The value as a binary64 number. -/
def float? : Value → Option Float
  | .number (.integer (.ofNat n)) => some (Float.ofNat n)
  | .number (.integer (.negSucc n)) => some (-(Float.ofNat (n + 1)))
  | .number (.float x) => some x
  | _ => none

def boolean? : Value → Option Bool
  | .boolean b => some b
  | _ => none

end Value

end TensorGraph.Json
