import TensorGraph.Error
import TensorGraph.Json.Value
import TensorGraph.Scalar

/-!
# TensorGraph.Trace.Parameter

Typed access to the parameters of a function application.

An absent parameter and a parameter `null` take the default. A required parameter has to be
there; given as `null`, it counts as zero.
-/

namespace TensorGraph

/-- The parameters of an application of the function `tag`. -/
structure Parameters where
  tag : String
  members : Json.Members

namespace Parameters

/-- The parameter `key` by `read?`, or `default` if it is absent or `null`. -/
def get {β : Type} (p : Parameters) (key : String) (default : β) (read? : Json.Value → Option β)
    (flaw : TraceFlaw) : Except TraceFlaw β :=
  match p.members.get? key with
  | none => .ok default
  | some .null => .ok default
  | some v =>
    match read? v with
    | some x => .ok x
    | none => .error flaw

def require (p : Parameters) (key : String) : Except TraceFlaw Unit :=
  if (p.members.get? key).isSome then .ok () else .error (.missingParameter p.tag key)

def natural (p : Parameters) (key : String) (default : Nat) : Except TraceFlaw Nat :=
  p.get key default Json.Value.nat? (.badNatural p.tag key)

/-- A number as a finite binary32 number. -/
def finite? (v : Json.Value) : Option Binary32 := do
  let x := Binary32.ofFloat64 (← v.float?)
  if x.isFinite then some x else none

def real (p : Parameters) (key : String) (default : Binary32) : Except TraceFlaw Binary32 :=
  p.get key default finite? (.badReal p.tag key)

def boolean (p : Parameters) (key : String) (default : Bool) : Except TraceFlaw Bool :=
  p.get key default Json.Value.boolean? (.badBoolean p.tag key)

def naturals? : Json.Value → Option Shape
  | .array items => items.mapM Json.Value.nat?
  | _ => none

/-- A shape, if one is given. -/
def shape? (p : Parameters) (key : String) : Except TraceFlaw (Option Shape) :=
  p.get key none (fun v => (naturals? v).map some) (.badShape p.tag key)

def requiredNatural (p : Parameters) (key : String) : Except TraceFlaw Nat := do
  p.require key
  p.natural key 0

def requiredReal (p : Parameters) (key : String) : Except TraceFlaw Binary32 := do
  p.require key
  p.real key 0

end Parameters

end TensorGraph
