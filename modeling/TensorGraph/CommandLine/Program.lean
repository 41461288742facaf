import TensorGraph.CommandLine.Arguments
import TensorGraph.Guarded.Build
import TensorGraph.Storage.Directory
import TensorGraph.Trace.Document

/-!
# TensorGraph.CommandLine.Program

The program: it reads a trace and writes artifacts.

* `Program.run`: a whole run, on any storage.
* `Failure`: what a run can fail with.
-/

namespace TensorGraph

inductive Failure where
  | usage (fault : UsageFault)
  | unreadable (path : String) (fault : StorageFault)
  | unwritable (path : String) (fault : StorageFault)
  | unwritableArtifacts (path : String) (fault : StorageFault)
  | graph (error : GraphError)
  | stopped (fault : Fault)
  deriving DecidableEq

namespace Failure

def message : Failure → String
  | .usage fault => fault.message
  | .unreadable path fault => "cannot read trace '" ++ path ++ "': " ++ fault.message
  | .unwritable path fault => "cannot write '" ++ path ++ "': " ++ fault.message
  | .unwritableArtifacts path fault =>
    "cannot write artifacts to '" ++ path ++ "': " ++ fault.message
  | .graph error => error.message
  | .stopped _ => "a step of the build has no result"

def exitCode : Failure → Nat
  | .usage _ => 2
  | .stopped _ => 101
  | _ => 1

end Failure

/-- What a run leaves behind, apart from files. -/
structure Outcome where
  stdout : String
  stderr : String
  failure : Option Failure

def Outcome.exitCode (o : Outcome) : Nat :=
  match o.failure with
  | some f => f.exitCode
  | none => 0

namespace Program

def name : String := "graph-builder"

def version : String := "0.1.0"

def help : String :=
  "Compile a neural-network graph trace into a backend descriptor and weight buffer\n\n" ++
  "Usage: " ++ name ++ " [OPTIONS] <TRACE>\n\n" ++
  "Arguments:\n" ++
  "  <TRACE>  Graph trace (JSON)\n\n" ++
  "Options:\n" ++
  "      --backend <BACKEND>    " ++
  "Target backend [default: webgpu] [possible values: webgpu, fallback]\n" ++
  "      --optimize             Run the graph optimizer before generation\n" ++
  "  -o, --out-dir <DIR>        Output directory for the artifacts [default: output]\n" ++
  "      --debug                Log graph snapshots after every stage\n" ++
  "      --dump-dot <PATH>      Write the final graph in Graphviz dot syntax\n" ++
  "      --disable-pass <NAME>  " ++
  "Skip an optimizer pass (repeatable) [possible values: " ++ ", ".intercalate Pass.names ++
  "]\n" ++
  "      --workgroup-size <N>   Invocations per WebGPU workgroup [default: 64]\n" ++
  "      --validate             " ++
  "Compile the generated WGSL on a GPU device, if one is available\n" ++
  "  -h, --help                 Print help\n" ++
  "  -V, --version              Print version\n"

variable {m : Type → Type} [Monad m]

/-- A step that may fail. -/
abbrev Step (m : Type → Type) (β : Type) := ExceptT Failure m β

/-- Takes the answer of the storage. -/
def demand {β : Type} (failure : StorageFault → Failure) (answer : m (Except StorageFault β)) :
    Step m β := do
  match (← (answer : m _)) with
  | .ok x => return x
  | .error fault => throw (failure fault)

def settle {β : Type} : Guarded β → Step m β
  | .ok x => return x
  | .error (.error e) => throw (.graph e)
  | .error (.fault f) => throw (.stopped f)

def readTrace (s : Storage m) (path : String) : Step m Trace := do
  let source ← demand (.unreadable path) (s.readText path)
  match Trace.ofJson source with
  | .ok t => return t
  | .error fault => throw (.graph (.malformedTrace (.document fault)))

/-- The path of a file in a directory. -/
def joined (dir name : String) : String :=
  if dir.endsWith "/" then dir ++ name else dir ++ "/" ++ name

def writeArtifacts (s : Storage m) (dir : String) (files : List (String × Content)) :
    Step m Unit := do
  demand (.unwritableArtifacts dir) (s.makeDirectories dir)
  files.forM fun (name, content) =>
    demand (.unwritableArtifacts dir) (s.write (joined dir name) content)

/-- The last line of a run that succeeds. -/
def summary (a : Artifacts Binary32) (dir : String) : String :=
  "Built " ++ a.descriptor.kernelCount.repr ++ " kernels for " ++ a.descriptor.backend.name ++
    " (" ++ a.weights.byteLength.repr ++ " weight bytes) into " ++ dir ++ "\n"

/-- Builds the artifacts of a trace. The dot file is written before the backend runs. -/
def build (s : Storage m) (a : Arguments) : Step m String := do
  let trace ← readTrace s a.trace
  let g ← settle (match Guarded.optimizedGraph trace a.options .unwanted with
    | .ok g _ => .ok g
    | .error stop _ => .error stop)
  match a.dumpDot with
  | some path => demand (.unwritable path) (s.write path (.text g.dot))
  | none => pure ()
  let artifacts ← settle (Guarded.lower g a.options)
  writeArtifacts s a.outDir artifacts.files
  return summary artifacts a.outDir

/-- A run of the program. -/
def run (s : Storage m) (args : List String) : m Outcome := do
  match Request.parse args with
  | .error fault =>
    return ⟨"", "error: " ++ fault.message ++ "\n", some (.usage fault)⟩
  | .ok .version => return ⟨name ++ " " ++ version ++ "\n", "", none⟩
  | .ok .help => return ⟨help, "", none⟩
  | .ok (.build a) =>
    match (← (build s a).run) with
    | .ok text => return ⟨"", text, none⟩
    | .error f => return ⟨"", "error: " ++ f.message ++ "\n", some f⟩

end Program

end TensorGraph
