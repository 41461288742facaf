import TensorGraph.Graph.Listing
import TensorGraph.Pass.Canonical
import TensorGraph.Pass.DeadCode
import TensorGraph.Pass.Folding
import TensorGraph.Pass.Fusion
import TensorGraph.Pass.Merging

/-!
# TensorGraph.Optimizer

All passes in a fixed order, again and again until a whole round changes nothing.

* `Pass.all`: the passes in their order.
* `OptimizerOptions`: which of them run, and for how many rounds.
* `Graph.optimize`: the optimized graph.

The graph is checked after every pass. A pass that fails or leaves a graph that does not check is
named in the error.
-/

namespace TensorGraph

/-- Listings of a graph at named stages, if they are wanted. -/
structure Snapshots where
  wanted : Bool
  taken : List (String × String)

namespace Snapshots

def unwanted : Snapshots := ⟨false, []⟩

def collecting : Snapshots := ⟨true, []⟩

def stages (s : Snapshots) : List String := s.taken.map Prod.fst

end Snapshots

/-- A computation that may fail and takes snapshots on its way. -/
abbrev Recorded (β : Type) := EStateM GraphError Snapshots β

namespace Recorded

variable {α : Type}

def snapshot (stage : String) (g : Graph α) : Recorded Unit :=
  modify fun s =>
    if s.wanted then { s with taken := s.taken ++ [(stage, g.listing)] } else s

def lift {β : Type} : Except GraphError β → Recorded β
  | .ok x => pure x
  | .error e => throw e

end Recorded

structure OptimizerOptions where
  maxRounds : Nat
  disabled : List String

namespace OptimizerOptions

def standard : OptimizerOptions := ⟨8, []⟩

end OptimizerOptions

namespace Pass

variable {α : Type} [Scalar α]

def all : List (Pass α) :=
  [canonicalLayout, constantFolding, elementwiseMerging, affineFusion, activationFusion,
    deadCodeRemoval]

/-- Names of all passes, in their order. -/
def names : List String :=
  ["normalize_layout", "constant_folding", "merge_elementwise", "fuse_affine", "fuse_activation",
    "eliminate_dead_code"]

/-- The passes that the options leave, in their order. A name of no pass disables nothing. -/
def enabled (options : OptimizerOptions) : List (Pass α) :=
  all.filter fun p => !options.disabled.contains p.name

/-- Runs a pass and checks the graph that it leaves. -/
def runChecked (p : Pass α) (g : Graph α) : Except GraphError (Graph α × PassReport) :=
  match p.run g with
  | .error e _ => .error (.brokenBy p.name e)
  | .ok report g =>
    match g.check with
    | .error e => .error (.brokenBy p.name e)
    | .ok _ => .ok (g, report)

/-- One round over the passes. -/
def round : List (Pass α) → Graph α → PassReport → Recorded (Graph α × PassReport)
  | [], g, total => return (g, total)
  | p :: rest, g, total => do
    let (g, report) ← Recorded.lift (runChecked p g)
    if report.changed then Recorded.snapshot ("after " ++ p.name) g
    round rest g (total.merge report)

/-- At most `n` rounds, until one changes nothing. -/
def rounds (ps : List (Pass α)) : Nat → Graph α → Recorded (Graph α)
  | 0, g => return g
  | n + 1, g => do
    let (g, report) ← round ps g .nothing
    if report.changed then rounds ps n g else return g

end Pass

/-- The graph after optimization. -/
def Graph.optimize {α : Type} [Scalar α] (g : Graph α) (options : OptimizerOptions) :
    Recorded (Graph α) :=
  Pass.rounds (Pass.enabled options) options.maxRounds g

end TensorGraph
