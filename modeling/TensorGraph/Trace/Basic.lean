import TensorGraph.Json.Value

/-!
# TensorGraph.Trace.Basic

Recorded forward runs of trained models.

* `Trace`: every tensor of a run with its shape, and every function application in the order in
  which it was made.
-/

namespace TensorGraph

/-- A tensor of a run. With a payload it is a constant of the model. -/
structure TracedVariable where
  name : String
  shape : List Nat
  elementType : Option String
  payload : Option (Array Binary32)
  deriving BEq

/-- A function application. -/
structure TracedNode where
  tag : String
  inputs : List String
  outputs : List String
  params : Json.Members
  deriving BEq

structure Trace where
  tensors : List TracedVariable
  nodes : List TracedNode
  inputs : List String
  outputs : List String
  deriving BEq

namespace Trace

def empty : Trace := ⟨[], [], [], []⟩

def addVariable (t : Trace) (name : String) (shape : List Nat) : Trace :=
  { t with tensors := t.tensors ++ [⟨name, shape, none, none⟩] }

def addConstant (t : Trace) (name : String) (shape : List Nat) (payload : Array Binary32) : Trace :=
  { t with tensors := t.tensors ++ [⟨name, shape, none, some payload⟩] }

/-- Adds a function application. Parameters that are not an object count as none. -/
def addNode (t : Trace) (tag : String) (inputs outputs : List String) (params : Json.Value) :
    Trace :=
  let members := match params with
    | .object members => members
    | _ => []
  { t with nodes := t.nodes ++ [⟨tag, inputs, outputs, members⟩] }

def designate (t : Trace) (inputs outputs : List String) : Trace := { t with inputs, outputs }

end Trace

end TensorGraph
