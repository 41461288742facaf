/-!
# TensorGraph.CommandLine.LogFormat

Settings of the log.
-/

namespace TensorGraph

inductive LogFormat where
  | human
  | json
  deriving DecidableEq

namespace LogFormat

def name : LogFormat → String
  | .human => "human"
  | .json => "json"

/-- The format of a name, in letters of either case. -/
def parse? (name : String) : Option LogFormat :=
  let name := name.toLower
  if ["human", "pretty", "console"].contains name then some .human
  else if ["json", "structured"].contains name then some .json
  else none

end LogFormat

/-- The filter of the log where the environment sets none. -/
def defaultDirective (debug : Bool) : String := if debug then "debug" else "info"

end TensorGraph
