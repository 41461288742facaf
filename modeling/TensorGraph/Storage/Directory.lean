import TensorGraph.Storage.Basic

/-!
# TensorGraph.Storage.Directory

Making a directory together with the ones around it.

* `directoriesAround`: the paths that lead to a path, the innermost first.
* `Storage.ensureDirectory`: makes one directory, unless it is there.
* `Storage.makeDirectories`: makes a directory and those around it, unless they are there.

Directories are tried from the inside out, and nothing is made before one is found whose
surroundings exist. So a fault further out leaves everything as it is.
-/

namespace TensorGraph

/-- Whether a part of a path leads nowhere. In front of a path, a dot is the working directory and
counts as a part. -/
def isIdlePart (part : String) : Bool := part = "" || part = "."

/-- The paths around the path that consists of `first` and further parts, which are given from the
last to the first. The root and the working directory are left out, unless a dot stands for it. -/
def pathsAround (first : String) : List String → List String
  | [] => []
  | part :: before =>
    if isIdlePart part then pathsAround first before
    else
      let path := "/".intercalate (first :: (before.dropWhile isIdlePart).reverse)
      if path.isEmpty then [] else path :: pathsAround first before

def directoriesAround (path : String) : List String :=
  match path.splitOn "/" with
  | [] => []
  | first :: rest => pathsAround first rest.reverse

namespace Storage

variable {m : Type → Type} [Monad m]

/-- Makes a directory. It is no fault that it is there already. -/
def ensureDirectory (s : Storage m) (path : String) : m (Except StorageFault Unit) := do
  match (← s.makeDirectory path) with
  | .ok () => return .ok ()
  | .error fault =>
    if fault = .alreadyExists then
      return if (← s.isDirectory path) then .ok () else .error fault
    else return .error fault

/-- Makes the first of some directories, given from the inside out, and as many of the others as
it takes. -/
def ensureDirectories (s : Storage m) : List String → m (Except StorageFault Unit)
  | [] => return .ok ()
  | path :: around => do
    match (← s.ensureDirectory path) with
    | .ok () => return .ok ()
    | .error fault =>
      if fault = .notFound then
        match (← s.ensureDirectories around) with
        | .ok () => s.ensureDirectory path
        | .error outer => return .error outer
      else return .error fault

def makeDirectories (s : Storage m) (path : String) : m (Except StorageFault Unit) :=
  s.ensureDirectories (path :: directoriesAround path)

end Storage

end TensorGraph
