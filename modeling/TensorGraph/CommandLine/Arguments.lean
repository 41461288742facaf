import TensorGraph.Lowering.Artifact

/-!
# TensorGraph.CommandLine.Arguments

The arguments of the program.

* `Arguments`: what they ask for.
* `Request.parse`: reads them from left to right, so that the first fault decides.

A long option takes its value after an equals sign or as the next argument. `-o` takes it also in
the same argument. After `--`, no argument is an option.
-/

namespace TensorGraph

structure Arguments where
  trace : String
  outDir : String
  dumpDot : Option String
  /-- Whether the kernels are to be compiled on a device, should there be one. -/
  validate : Bool
  options : BuildOptions

inductive UsageFault where
  | unknownOption (text : String)
  | unexpectedArgument (text : String)
  | unexpectedValue (option : String)
  | missingValue (option : String)
  | badValue (option value : String)
  | repeated (option : String)
  | missingTrace
  deriving DecidableEq

def UsageFault.message : UsageFault → String
  | .unknownOption text => "unknown option '" ++ text ++ "'"
  | .unexpectedArgument text => "unexpected argument '" ++ text ++ "'"
  | .unexpectedValue option => "option '" ++ option ++ "' takes no value"
  | .missingValue option => "option '" ++ option ++ "' needs a value"
  | .badValue option value => "invalid value '" ++ value ++ "' for '" ++ option ++ "'"
  | .repeated option => "'" ++ option ++ "' is given more than once"
  | .missingTrace => "no trace is given"

inductive Flag where
  | optimize
  | debug
  | validate
  | help
  | version
  deriving DecidableEq

namespace Flag

def all : List Flag := [.optimize, .debug, .validate, .help, .version]

def name : Flag → String
  | .optimize => "optimize"
  | .debug => "debug"
  | .validate => "validate"
  | .help => "help"
  | .version => "version"

end Flag

/-- Options with a value. -/
inductive Setting where
  | trace
  | backend
  | outDir
  | dumpDot
  | disablePass
  | workgroupSize
  deriving DecidableEq

namespace Setting

/-- The settings that are options. The trace is given by its place. -/
def all : List Setting := [.backend, .outDir, .dumpDot, .disablePass, .workgroupSize]

def name : Setting → String
  | .trace => "trace"
  | .backend => "backend"
  | .outDir => "out-dir"
  | .dumpDot => "dump-dot"
  | .disablePass => "disable-pass"
  | .workgroupSize => "workgroup-size"

end Setting

/-- The arguments read so far. -/
structure Given where
  flags : List Flag
  trace : Option String
  backend : Option Backend
  outDir : Option String
  dumpDot : Option String
  disabled : List String
  workgroupSize : Option Nat

inductive Request where
  | build (a : Arguments)
  | help
  | version

namespace Given

def nothing : Given := ⟨[], none, none, none, none, [], none⟩

/-- A number of invocations that a workgroup may have. -/
def workgroupSize? (text : String) : Option Nat := do
  let digits := match text.toList with
    | '+' :: rest => rest
    | cs => cs
  if digits.isEmpty || !digits.all Char.isDigit then none
  let n := digits.foldl (fun n d => 10 * n + (d.toNat - '0'.toNat)) 0
  if 1 ≤ n && n ≤ Device.maxWorkgroupSize then some n else none

/-- A path. -/
def path? (text : String) : Option String := if text.isEmpty then none else some text

def pass? (text : String) : Option String :=
  if Pass.names.contains text then some text else none

/-- The value of a setting that is given once. -/
def once {β : Type} (s : Setting) (text : String) (value : Option β) (slot : Option β) :
    Except UsageFault (Option β) :=
  match value with
  | none => .error (.badValue s.name text)
  | some x => if slot.isSome then .error (.repeated s.name) else .ok (some x)

/-- Takes a setting. -/
def set (g : Given) (s : Setting) (text : String) : Except UsageFault Given := do
  match s with
  | .trace => return { g with trace := ← once s text (path? text) g.trace }
  | .backend => return { g with backend := ← once s text (Backend.parse? text) g.backend }
  | .outDir => return { g with outDir := ← once s text (path? text) g.outDir }
  | .dumpDot => return { g with dumpDot := ← once s text (path? text) g.dumpDot }
  | .workgroupSize =>
    return { g with workgroupSize := ← once s text (workgroupSize? text) g.workgroupSize }
  | .disablePass =>
    match pass? text with
    | some name => return { g with disabled := g.disabled ++ [name] }
    | none => throw (.badValue s.name text)

/-- Takes a flag. Help and version end the reading. -/
def raise (g : Given) (f : Flag) : Except UsageFault (Given ⊕ Request) :=
  match f with
  | .help => .ok (.inr .help)
  | .version => .ok (.inr .version)
  | f =>
    if g.flags.contains f then .error (.repeated f.name)
    else .ok (.inl { g with flags := f :: g.flags })

/-- Everything read, with the defaults for what is not given. -/
def finish (g : Given) : Except UsageFault Request :=
  match g.trace with
  | none => .error .missingTrace
  | some trace =>
    .ok (.build
      { trace
        outDir := g.outDir.getD "output"
        dumpDot := g.dumpDot
        validate := g.flags.contains .validate
        options :=
          { backend := g.backend.getD .webgpu
            optimize := g.flags.contains .optimize
            debug := g.flags.contains .debug
            optimizer := { OptimizerOptions.standard with disabled := g.disabled }
            workgroupSize := g.workgroupSize.getD 64 } })

end Given

namespace Request

/-- Form of a single argument. -/
inductive Form where
  | flag (f : Flag)
  | setting (s : Setting) (value : Option String)
  | positional
  | separator
  | faulty (fault : UsageFault)

/-- The name of a long option and the value after its equals sign. -/
def splitLong (text : String) : String × Option String :=
  let name := text.toList.takeWhile (· ≠ '=')
  match text.toList.dropWhile (· ≠ '=') with
  | [] => (.ofList name, none)
  | _ :: value => (.ofList name, some (.ofList value))

def longForm (text : String) : Form :=
  let (name, value) := splitLong text
  match Flag.all.find? (·.name = name), Setting.all.find? (·.name = name), value with
  | some f, _, none => .flag f
  | some f, _, some _ => .faulty (.unexpectedValue f.name)
  | none, some s, value => .setting s value
  | none, none, _ => .faulty (.unknownOption ("--" ++ text))

/-- A short option with what follows it in the same argument. -/
def shortForm (c : Char) (rest : List Char) : Form :=
  if c = 'o' then
    match rest with
    | [] => .setting .outDir none
    | '=' :: value => .setting .outDir (some (.ofList value))
    | value => .setting .outDir (some (.ofList value))
  else if c = 'h' then .flag .help
  else if c = 'V' then .flag .version
  else .faulty (.unknownOption (.ofList ['-', c]))

def formOf (text : String) : Form :=
  match text.toList with
  | ['-', '-'] => .separator
  | '-' :: '-' :: rest => longForm (.ofList rest)
  | '-' :: c :: rest => shortForm c rest
  | _ => .positional

/-- Whether an argument can be the value of an option before it. -/
def isValue (text : String) : Bool :=
  match text.toList with
  | '-' :: _ :: _ => false
  | _ => true

/-- Arguments that are no options. -/
def positionals (g : Given) : List String → Except UsageFault Request
  | [] => g.finish
  | text :: rest => do
    let g ← g.set .trace text
    positionals g rest

def arguments (g : Given) : List String → Except UsageFault Request
  | [] => g.finish
  | text :: rest =>
    match formOf text with
    | .separator => positionals g rest
    | .faulty fault => .error fault
    | .positional => do
      let g ← g.set .trace text
      arguments g rest
    | .flag f => do
      match (← g.raise f) with
      | .inl g => arguments g rest
      | .inr request => return request
    | .setting s (some value) => do
      let g ← g.set s value
      arguments g rest
    | .setting s none =>
      match rest with
      | [] => .error (.missingValue s.name)
      | value :: rest =>
        if isValue value then do
          let g ← g.set s value
          arguments g rest
        else .error (.missingValue s.name)

def parse (args : List String) : Except UsageFault Request := arguments .nothing args

end Request

end TensorGraph
