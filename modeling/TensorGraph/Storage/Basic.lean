import TensorGraph.Lowering.Document

/-!
# TensorGraph.Storage.Basic

Files, as far as the program needs them.

* `Storage`: the operations, in any monad.
* `StorageFault`: why one of them is refused.
-/

namespace TensorGraph

/-- `refused` carries the number of a system error. -/
inductive StorageFault where
  | refused (code : Nat)
  | notText
  deriving DecidableEq

namespace StorageFault

def notFound : StorageFault := .refused 2
def alreadyExists : StorageFault := .refused 17
def notDirectory : StorageFault := .refused 20
def isDirectory : StorageFault := .refused 21
def noSpace : StorageFault := .refused 28
def nameTooLong : StorageFault := .refused 36

/-- What the system says about an error number. -/
def description : Nat → String
  | 1 => "Operation not permitted"
  | 2 => "No such file or directory"
  | 5 => "Input/output error"
  | 13 => "Permission denied"
  | 17 => "File exists"
  | 20 => "Not a directory"
  | 21 => "Is a directory"
  | 22 => "Invalid argument"
  | 28 => "No space left on device"
  | 30 => "Read-only file system"
  | 36 => "File name too long"
  | 40 => "Too many levels of symbolic links"
  | n => "Unknown error " ++ n.repr

def message : StorageFault → String
  | .refused code => description code ++ " (os error " ++ code.repr ++ ")"
  | .notText => "stream did not contain valid UTF-8"

end StorageFault

/-- Access to files by their paths. -/
structure Storage (m : Type → Type) where
  readText : String → m (Except StorageFault String)
  /-- Replaces a file, or makes a new one in a directory that is there. -/
  write : String → Content → m (Except StorageFault Unit)
  /-- Makes a directory in one that is there. -/
  makeDirectory : String → m (Except StorageFault Unit)
  isDirectory : String → m Bool

end TensorGraph
