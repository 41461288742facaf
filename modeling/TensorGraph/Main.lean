import TensorGraph.CommandLine.Program

/-!
# TensorGraph.Main

The program on the files of the system.
-/

namespace TensorGraph

/-- The number of a system error. -/
def systemCode : IO.Error → Nat
  | .alreadyExists _ code _ => code.toNat
  | .permissionDenied _ code _ => code.toNat
  | .resourceExhausted _ code _ => code.toNat
  | .inappropriateType _ code _ => code.toNat
  | .noSuchThing _ code _ => code.toNat
  | .noFileOrDirectory _ code _ => code.toNat
  | .invalidArgument _ code _ => code.toNat
  | _ => 5

/-- Runs an action on a file, and catches what the system refuses. -/
def guarded {β : Type} (action : IO β) : IO (Except StorageFault β) := do
  match (← action.toBaseIO) with
  | .ok x => return .ok x
  | .error e => return .error (.refused (systemCode e))

/-- A directory, and nothing else, has a name for itself that cannot be made once more. -/
def isDirectory (path : String) : IO Bool := do
  match (← guarded (IO.FS.createDir (path ++ "/."))) with
  | .ok _ => return false
  | .error fault => return fault = .alreadyExists

def systemStorage : Storage IO where
  readText path := do
    match (← guarded (IO.FS.readBinFile path)) with
    | .error fault => return .error fault
    | .ok bytes => return (String.fromUTF8? bytes).elim (.error .notText) .ok
  write path content :=
    guarded (IO.FS.writeBinFile path ⟨content.toBytes.toArray⟩)
  makeDirectory path := guarded (IO.FS.createDir path)
  isDirectory := isDirectory

end TensorGraph

def main (args : List String) : IO UInt32 := do
  let outcome ← TensorGraph.Program.run TensorGraph.systemStorage args
  IO.print outcome.stdout
  IO.eprint outcome.stderr
  return .ofNat outcome.exitCode
