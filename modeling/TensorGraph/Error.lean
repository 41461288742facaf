import TensorGraph.Graph.Id
import TensorGraph.Json.Fault
import TensorGraph.Operator.Arity
import TensorGraph.Tensor.Window

/-!
# TensorGraph.Error

Everything that can go wrong between a trace and the artifacts made of it.

* `GraphError`: what failed, and where. Its parts name causes, never texts.
* `GraphError.message`: the wording of all causes.
* `GraphError.kind`: the short name of the class of an error.
-/

namespace TensorGraph

/-- The node of a graph that an error is about. -/
inductive Place where
  | variable (v : VariableId)
  | operator (o : OperatorId)
  | labelled (o : OperatorId) (kind : String)
  | named (name : String)
  deriving DecidableEq

/-- Why a trace is malformed. -/
inductive TraceFlaw where
  | document (fault : Json.Fault)
  | duplicateVariable (name : String)
  | unsupportedType (name type : String)
  | zeroDimension (name : String) (shape : Shape)
  | payloadSize (name : String) (shape : Shape) (given expected : Nat)
  | unknownInNode (index : Nat) (tag name : String)
  | unknownInput (name : String)
  | unknownOutput (name : String)
  | arity (tag : String) (wanted : Arity) (given : Nat)
  | outputCount (tag : String) (given : Nat)
  | missingParameter (tag key : String)
  | badNatural (tag key : String)
  | badReal (tag key : String)
  | badBoolean (tag key : String)
  | badShape (tag key : String)
  | stated (text : String)
  deriving DecidableEq

/-- Which invariant of a graph does not hold, or which precondition of an edit. -/
inductive GraphFlaw where
  | variableNotLive
  | operatorNotLive
  | inputNotLive (v : VariableId)
  | outputNotLive (v : VariableId)
  | outputProduced (v : VariableId) (o : OperatorId)
  | outputConstant (v : VariableId)
  | repeated (v : VariableId)
  | payloadOfProduced
  | inputNotFree
  | produced (o : OperatorId)
  | notAnOutput (v : VariableId)
  | notAnInput (v : VariableId)
  | unknownOperand
  | deadReference (v : VariableId)
  | missingConsumer (o : OperatorId)
  | missingProducer (o : OperatorId)
  | staleProducer (o : OperatorId)
  | producedConstant
  | staleConsumer (o : OperatorId)
  | payloadSize (given : Nat) (shape : Shape)
  | emptyDimension (shape : Shape)
  | unsourced
  | unused
  | deadDesignation
  | cycle
  | bufferCount (inputs given : Nat)
  | notComputed
  | operandCount (given inputs : Nat)
  | unaddressable (buffer : String) (elements : Nat)
  | stated (text : String)
  deriving DecidableEq

/-- Why shapes do not fit an operator, or a payload its shape. -/
inductive ShapeFlaw where
  | constantSize (shape : Shape) (expected given : Nat)
  | payloadSize (expected given : Nat)
  | arity (wanted : Arity) (given : Nat)
  | linearRank (input : Shape)
  | linearFeatures (weight : Shape) (features : Nat) (input : Shape)
  | vector (what : String) (length : Nat) (given : Shape)
  | channelAxis (input : Shape)
  | negativeEps (text : String)
  | imageRank (input : Shape)
  | filterRank (filter : Shape)
  | filterForm (filter : Shape)
  | filterChannels (expected : Nat) (input : Shape) (given : Nat)
  | filterExtent (given kernel : Extent)
  | emptyWindow (kernel stride : Extent)
  | kernelTooLarge (kernel input : Extent)
  | emptyNeighbourhood
  | reshapeSize (source : Shape) (target : Shape)
  | operandShapes (first other : Shape)
  | axisRange (axis : Nat) (input : Shape)
  | outputCount (given : Nat)
  | declaredShape (output : VariableId) (declared : Shape) (inputs : List Shape) (inferred : Shape)
  | inputSize (shape : Shape) (given : Nat)
  | resultSize (given : Nat) (shape : Shape)
  | outOfBounds
  | stated (text : String)
  deriving DecidableEq

/-- An error of the library. `brokenBy` names the optimization pass that an error was found
after. -/
inductive GraphError where
  | unsupportedOperator (tag : String)
  | malformedTrace (flaw : TraceFlaw)
  | invalidGraph (place : Place) (flaw : GraphFlaw)
  | unsupportedByBackend (backend kind : String) (operator : Place)
  | shapeMismatch (operator : Place) (flaw : ShapeFlaw)
  | brokenBy (pass : String) (error : GraphError)
  deriving DecidableEq

def Place.text : Place → String
  | .variable v => v.text
  | .operator o => o.text
  | .labelled o kind => o.label kind
  | .named name => name

namespace TraceFlaw

/-- A parameter of the wrong type. -/
def badParameter (tag key wanted : String) : String :=
  "parameter `" ++ key ++ "` of " ++ tag ++ " must be " ++ wanted

def text : TraceFlaw → String
  | .document fault => fault.message
  | .duplicateVariable name => "duplicate variable `" ++ name ++ "`"
  | .unsupportedType name type =>
    "variable `" ++ name ++ "` has unsupported dtype `" ++ type ++ "`"
  | .zeroDimension name shape =>
    "variable `" ++ name ++ "` has a zero dimension in " ++ shape.text
  | .payloadSize name shape given expected =>
    "variable `" ++ name ++ "` of shape " ++ shape.text ++ " carries " ++ given.repr ++
      " values, expected " ++ expected.repr
  | .unknownInNode index tag name =>
    "node " ++ index.repr ++ " (" ++ tag ++ ") refers to unknown variable `" ++ name ++ "`"
  | .unknownInput name => "graph input refers to unknown variable `" ++ name ++ "`"
  | .unknownOutput name => "graph output refers to unknown variable `" ++ name ++ "`"
  | .arity tag wanted given =>
    tag ++ " takes " ++ wanted.text ++ " inputs, got " ++ given.repr
  | .outputCount tag given => tag ++ " must have exactly one output, got " ++ given.repr
  | .missingParameter tag key => tag ++ " is missing parameter `" ++ key ++ "`"
  | .badNatural tag key => badParameter tag key "a non-negative integer"
  | .badReal tag key => badParameter tag key "a finite f32 number"
  | .badBoolean tag key => badParameter tag key "a boolean"
  | .badShape tag key => badParameter tag key "a list of non-negative integers"
  | .stated text => text

end TraceFlaw

namespace GraphFlaw

def text : GraphFlaw → String
  | .variableNotLive => "variable is not live"
  | .operatorNotLive => "operator is not live"
  | .inputNotLive v => "input " ++ v.text ++ " is not live"
  | .outputNotLive v => "output " ++ v.text ++ " is not live"
  | .outputProduced v o => v.text ++ " is already produced by " ++ o.text
  | .outputConstant v => v.text ++ " is a constant"
  | .repeated v => v.text ++ " appears twice"
  | .payloadOfProduced => "cannot attach data to a produced variable"
  | .inputNotFree => "graph input must be a free variable"
  | .produced o => "already produced by " ++ o.text
  | .notAnOutput v => v.text ++ " is not an output"
  | .notAnInput v => v.text ++ " is not an input"
  | .unknownOperand => "unknown operand"
  | .deadReference v => "references dead " ++ v.text
  | .missingConsumer o => "missing consumer " ++ o.text
  | .missingProducer o => "missing producer " ++ o.text
  | .staleProducer o => "stale producer " ++ o.text
  | .producedConstant => "constant has a producer"
  | .staleConsumer o => "stale consumer " ++ o.text
  | .payloadSize given shape =>
    "payload has " ++ given.repr ++ " elements for shape " ++ shape.text
  | .emptyDimension shape => "empty dimension in " ++ shape.text
  | .unsourced => "not a graph input, a constant, or an operator output"
  | .unused => "value is never used"
  | .deadDesignation => "designated input/output is dead"
  | .cycle => "operator dependencies form a cycle"
  | .bufferCount inputs given =>
    "graph has " ++ inputs.repr ++ " inputs, " ++ given.repr ++ " buffers given"
  | .notComputed => "value is not computed yet"
  | .operandCount given inputs =>
    given.repr ++ " operand buffers for " ++ inputs.repr ++ " inputs"
  | .unaddressable buffer elements =>
    buffer ++ " buffer of " ++ elements.repr ++ " elements exceeds 32-bit addressing"
  | .stated text => text

end GraphFlaw

namespace ShapeFlaw

def text : ShapeFlaw → String
  | .constantSize shape expected given =>
    "constant of shape " ++ shape.text ++ " needs " ++ expected.repr ++ " elements, got " ++
      given.repr
  | .payloadSize expected given =>
    "expected " ++ expected.repr ++ " elements, got " ++ given.repr
  | .arity wanted given => "expected " ++ wanted.text ++ " inputs, got " ++ given.repr
  | .linearRank input => "linear input must have rank >= 2, got " ++ input.text
  | .linearFeatures weight features input =>
    "weight " ++ weight.text ++ " does not match " ++ features.repr ++ " input features of " ++
      input.text
  | .vector what length given =>
    what ++ " must have shape " ++ Shape.text [length] ++ ", got " ++ given.text
  | .channelAxis input => "batch normalization needs a channel axis, got " ++ input.text
  | .negativeEps text => "eps must be non-negative, got " ++ text
  | .imageRank input => "expected NCHW input, got " ++ input.text
  | .filterRank filter => "filter must have rank 4, got " ++ filter.text
  | .filterForm filter => "filter must be [O, I, kh, kw], got " ++ filter.text
  | .filterChannels expected input given =>
    "filter expects " ++ expected.repr ++ " input channels, input " ++ input.text ++ " has " ++
      given.repr
  | .filterExtent given kernel =>
    "filter extent " ++ given.text ++ " differs from kernel " ++ kernel.text
  | .emptyWindow kernel stride =>
    "kernel " ++ kernel.text ++ " and stride " ++ stride.text ++ " must be positive"
  | .kernelTooLarge kernel input =>
    "kernel " ++ kernel.text ++ " larger than padded input " ++ input.text
  | .emptyNeighbourhood => "window size must be positive"
  | .reshapeSize source target =>
    "cannot reshape " ++ source.text ++ " (" ++ source.size.repr ++ " elements) into " ++
      target.text ++ " (" ++ target.size.repr ++ " elements)"
  | .operandShapes first other =>
    "operand shapes " ++ first.text ++ " and " ++ other.text ++ " differ"
  | .axisRange axis input => "axis " ++ axis.repr ++ " out of range for " ++ input.text
  | .outputCount given => "expected 1 output, got " ++ given.repr
  | .declaredShape output declared inputs inferred =>
    "output " ++ output.text ++ " declared as " ++ declared.text ++ " but inputs " ++
      bracketed (inputs.map Shape.text) ++ " give " ++ inferred.text
  | .inputSize shape given =>
    "input " ++ shape.text ++ " needs " ++ shape.size.repr ++ " elements, got " ++ given.repr
  | .resultSize given shape =>
    "computed " ++ given.repr ++ " elements for output " ++ shape.text
  | .outOfBounds => "an operand buffer is too short"
  | .stated text => text

end ShapeFlaw

namespace GraphError

/-- The short name of an error's class. -/
def kind : GraphError → String
  | .unsupportedOperator _ => "UnsupportedOperator"
  | .malformedTrace _ => "MalformedTrace"
  | .invalidGraph _ _ => "InvalidGraph"
  | .unsupportedByBackend _ _ _ => "UnsupportedBackendOperator"
  | .shapeMismatch _ _ => "ShapeMismatch"
  | .brokenBy _ _ => "OptimizationInvariantViolation"

def message : GraphError → String
  | .unsupportedOperator tag => "unsupported operator `" ++ tag ++ "`"
  | .malformedTrace flaw => "malformed trace: " ++ flaw.text
  | .invalidGraph place flaw => "invalid graph at " ++ place.text ++ ": " ++ flaw.text
  | .unsupportedByBackend backend kind operator =>
    "backend `" ++ backend ++ "` has no lowering for `" ++ kind ++ "` (" ++ operator.text ++ ")"
  | .shapeMismatch operator flaw => "shape mismatch in " ++ operator.text ++ ": " ++ flaw.text
  | .brokenBy pass error =>
    let (node, detail) := match error with
      | .invalidGraph place flaw => (place.text, flaw.text)
      | .shapeMismatch operator flaw => (operator.text, flaw.text)
      | other => ("", other.message)
    "optimization pass `" ++ pass ++ "` broke the graph at " ++ node ++ ": " ++ detail

/-- An error at a variable. -/
def atVariable (v : VariableId) (flaw : GraphFlaw) : GraphError :=
  .invalidGraph (.variable v) flaw

/-- An error at an operator, known by its slot alone. -/
def atOperator (o : OperatorId) (flaw : GraphFlaw) : GraphError :=
  .invalidGraph (.operator o) flaw

end GraphError

end TensorGraph
