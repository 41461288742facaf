import TensorGraph.Storage.Basic

/-!
# TensorGraph.Storage.Volume

Files held in memory.

* `Volume`: directories and files, with a working directory.
* `Volume.lookup`: the directory that a path leads to, and the last name in it.
* `Volume.storage`: the operations of `Storage` on a volume.

A path is walked from the root if it begins with a slash, else from the working directory. Every
part of it but the last has to be a directory. Names and paths have a greatest length.
-/

namespace TensorGraph

/-- The names from the root to a node. -/
abbrev Location := List String

inductive VolumeNode where
  | directory
  | file (content : Content)
  /-- A device that keeps nothing. One without room takes nothing either. -/
  | sink (room : Bool)

/-- The nodes of a volume; the root is always there. -/
structure Volume where
  nodes : List (Location × VolumeNode)
  working : Location

namespace Volume

/-- Greatest length of a name in bytes. -/
def nameLimit : Nat := 255

/-- Greatest length of a path in bytes. -/
def pathLimit : Nat := 4095

def node? (v : Volume) : Location → Option VolumeNode
  | [] => some .directory
  | place => v.nodes.lookup place

def put (v : Volume) (place : Location) (n : VolumeNode) : Volume :=
  { v with nodes := (v.nodes.filter fun e => e.1 ≠ place) ++ [(place, n)] }

/-- Where a path starts, and its parts. -/
def origin (v : Volume) (path : String) : Except StorageFault (Location × List String) :=
  if pathLimit < path.utf8ByteSize then .error .nameTooLong
  else .ok (if path.startsWith "/" then [] else v.working, path.splitOn "/")

/-- Names that every directory has for itself and for the one around it. -/
def isDots (part : String) : Bool := part = "." || part = ".."

/-- The location after one more part of a path. -/
def enter (place : Location) (part : String) : Location :=
  if part = "" ∨ part = "." then place
  else if part = ".." then place.dropLast
  else place ++ [part]

def checkName (name : String) : Except StorageFault Unit :=
  if nameLimit < name.utf8ByteSize then .error .nameTooLong else .ok ()

/-- A location that has to be a directory. -/
def checkDirectory (v : Volume) (place : Location) : Except StorageFault Unit :=
  match v.node? place with
  | some .directory => .ok ()
  | some _ => .error .notDirectory
  | none => .error .notFound

/-- Walks through directories. The last location need not be there. -/
def walk (v : Volume) : Location → List String → Except StorageFault Location
  | place, [] => .ok place
  | place, part :: rest => do
    v.checkDirectory place
    checkName part
    walk v (enter place part) rest

/-- The location that a path names. -/
def locate (v : Volume) (path : String) : Except StorageFault Location := do
  let (place, parts) ← v.origin path
  v.walk place parts

/-- The directory that a path leads to, and the last name in the path. Slashes at its end are
passed over. The root has no name. -/
def lookup (v : Volume) (path : String) : Except StorageFault (Location × Option String) := do
  let (place, parts) ← v.origin path
  match parts.reverse.dropWhile (· = "") with
  | [] => return (place, none)
  | last :: before =>
    let place ← v.walk place before.reverse
    v.checkDirectory place
    return (place, some last)

def textOf : Content → Except StorageFault String
  | .text s => .ok s
  | .bytes bs =>
    match String.fromUTF8? ⟨bs.toArray⟩ with
    | some s => .ok s
    | none => .error .notText

def read (v : Volume) (path : String) : Except StorageFault String := do
  match v.node? (← v.locate path) with
  | some (.file content) => textOf content
  | some (.sink _) => return ""
  | some .directory => throw .isDirectory
  | none => throw .notFound

/-- A path that ends in a slash or in dots names a directory, which cannot be written to. -/
def write (v : Volume) (path : String) (content : Content) : Except StorageFault Volume := do
  match (← v.lookup path) with
  | (_, none) => throw .isDirectory
  | (place, some last) =>
    if path.endsWith "/" || isDots last then throw .isDirectory
    checkName last
    match v.node? (place ++ [last]) with
    | some .directory => throw .isDirectory
    | some (.sink room) => if room || content.toBytes.isEmpty then return v else throw .noSpace
    | _ => return v.put (place ++ [last]) (.file content)

def makeDirectory (v : Volume) (path : String) : Except StorageFault Volume := do
  match (← v.lookup path) with
  | (_, none) => throw .alreadyExists
  | (place, some last) =>
    if isDots last then throw .alreadyExists
    checkName last
    match v.node? (place ++ [last]) with
    | some _ => throw .alreadyExists
    | none => return v.put (place ++ [last]) .directory

def isDirectory (v : Volume) (path : String) : Bool :=
  match v.locate path with
  | .ok place => (v.checkDirectory place).isOk
  | .error _ => false

/-- An operation that changes the volume if it succeeds. -/
def change (f : Volume → Except StorageFault Volume) : StateM Volume (Except StorageFault Unit) :=
  fun v =>
    match f v with
    | .ok v => (.ok (), v)
    | .error e => (.error e, v)

def storage : Storage (StateM Volume) where
  readText path := do return (← get).read path
  write path content := change fun v => v.write path content
  makeDirectory path := change fun v => v.makeDirectory path
  isDirectory path := do return (← get).isDirectory path

/-- The nodes right below a location. -/
def children (v : Volume) (place : Location) : List (String × VolumeNode) :=
  v.nodes.filterMap fun (location, n) =>
    match location.getLast? with
    | some name => if location = place ++ [name] then some (name, n) else none
    | none => none

end Volume

end TensorGraph
