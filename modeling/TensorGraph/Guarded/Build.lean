import TensorGraph.Guarded.Conversion
import TensorGraph.Lowering.Artifact

/-!
# TensorGraph.Guarded.Build

From a trace to its artifacts in words of 64 bits.

* `optimize`: the optimizer. It checks shapes, and evaluates the operators that it folds.
* `lower`: a backend. It counts the elements of all variables, and the area of windows.
* `optimizedGraph`, `build`: the graph that is lowered, and the artifacts of a trace.

Explicit margins lead to the same sums as those that they stand for, and what else the passes and
the backends count are elements of buffers that exist.
-/

namespace TensorGraph.Guarded

variable {α : Type} [Scalar α]

/-! ## Optimizing -/

/-- A step of the folding pass. An operator on constants is evaluated. -/
def foldStep (op : Operator α) (report : PassReport) : Run (Graph α) PassReport := do
  let g ← get
  if op.inputs.all g.isConstant then
    let result ← Run.lift (evaluateOperator g op (op.inputs.filterMap g.payload?))
    Run.perform (Pass.replaceByConstant op result)
    return report.record 1
  else Run.perform (Pass.foldStep op report)

/-- The folding pass. -/
def foldConstants : Run (Graph α) PassReport := do
  let order ← Run.perform Pass.schedule
  let report ← Pass.visit foldStep .nothing order
  Run.perform (Pass.tidyUp report)

/-- A pass. All but one of them take numbers only as they are. -/
def runPass (p : Pass α) : Run (Graph α) PassReport :=
  if p.name = (Pass.constantFolding : Pass α).name then foldConstants else Run.perform p.run

/-- Names the pass that an error comes from. -/
def blame {β : Type} (pass : String) : Guarded β → Guarded β
  | .error (.error e) => .error (.error (.brokenBy pass e))
  | outcome => outcome

/-- Runs a pass and checks the graph that it leaves. -/
def runChecked (p : Pass α) (g : Graph α) : Guarded (Graph α × PassReport) :=
  match runPass p g with
  | .error stop _ => blame p.name (.error stop)
  | .ok report g => do
    blame p.name (check g)
    return (g, report)

/-- One round over the passes. -/
def round : List (Pass α) → Graph α → PassReport → Run Snapshots (Graph α × PassReport)
  | [], g, total => return (g, total)
  | p :: rest, g, total => do
    let (g, report) ← Run.lift (runChecked p g)
    if report.changed then Run.perform (Recorded.snapshot ("after " ++ p.name) g)
    round rest g (total.merge report)

/-- At most `n` rounds, until one changes nothing. -/
def rounds (ps : List (Pass α)) : Nat → Graph α → Run Snapshots (Graph α)
  | 0, g => return g
  | n + 1, g => do
    let (g, report) ← round ps g .nothing
    if report.changed then rounds ps n g else return g

/-- The graph after optimization. -/
def optimize (g : Graph α) (options : OptimizerOptions) : Run Snapshots (Graph α) :=
  rounds (Pass.enabled options) options.maxRounds g

/-! ## Lowering -/

omit [Scalar α] in
/-- Counts the elements of every variable. -/
def countVariables (g : Graph α) : Guarded Unit :=
  g.liveVariables.forM fun x => discard (count x.shape)

omit [Scalar α] in
/-- Counts the pixels that an average is over. -/
def countWindow (op : Operator α) : Guarded Unit :=
  match op.kind with
  | .pooling p =>
    match p.mode with
    | .max => return ⟨⟩
    | .average => discard (times p.kernel.height p.kernel.width)
  | _ => return ⟨⟩

/-- The artifacts of a graph that has been checked. The device refuses a graph that is too large
before it writes kernels; the fallback lists the sizes of the variables at the end. -/
def lower (g : Graph α) (options : BuildOptions) : Guarded (Artifacts α) := do
  match options.backend with
  | .fallback => do
    let artifacts ← report (g.lower options)
    countVariables g
    return artifacts
  | .webgpu => do
    countVariables g
    let artifacts ← report (g.lower options)
    g.liveOperators.forM countWindow
    return artifacts

/-! ## From a trace to its artifacts -/

/-- The graph of a trace, optimized if the options ask for it. -/
def optimizedGraph (t : Trace) (options : BuildOptions) : Run Snapshots (Graph Binary32) := do
  let g ← Run.lift (toGraph t)
  Run.perform (Recorded.snapshot "converted" g)
  if options.optimize then optimize g options.optimizer else return g

def build (t : Trace) (options : BuildOptions) : Run Snapshots (Artifacts Binary32) := do
  let g ← optimizedGraph t options
  Run.perform (Recorded.snapshot "before generation" g)
  Run.lift (lower g options)

end TensorGraph.Guarded
