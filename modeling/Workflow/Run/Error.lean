import Workflow.Graph.Basic
import Workflow.Json.Reader
import Workflow.Transform.Operation

/-!
# Errors of a run

A run can fail before it begins, at an edge, or in a node. Each layer adds where the failure
happened to what the layer within says.
-/

namespace Workflow

/-- Why a node has no output. -/
inductive NodeError where
  /-- The payload of a start node is not JSON. -/
  | invalidPayload
  /-- The payload of a start node is nested too deep, in a collection of the given kind. -/
  | deepPayload (kind : Json.Collection)
  /-- A transform node got nothing, or null. -/
  | missingInput
  /-- The operation of the given name refused. -/
  | refused (operation : String) (cause : TransformError)
  /-- A product overflowed. -/
  | overflow
  /-- An integer to be appended has too many digits. -/
  | longInteger
deriving DecidableEq

/-- The sentence for an error in a node. -/
def NodeError.message : NodeError → String
  | invalidPayload => "Invalid JSON in start node payload"
  | deepPayload kind =>
    "maximum recursion depth exceeded while decoding a JSON " ++ kind.name
      ++ " from a unicode string"
  | missingInput => "Transform node requires input from previous node"
  | refused operation cause =>
    "Transform operation \"" ++ operation ++ "\" failed: " ++ cause.message
  | overflow => OperationFailure.overflow.message
  | longInteger => OperationFailure.longInteger.message

/-- Why a run that has begun stopped. -/
inductive WalkError where
  /-- The node was reached a second time. -/
  | cycle (id label : String)
  /-- No node has the id that an edge leads to. -/
  | dangling (target : String)
  /-- The node of the given id, label and type failed. -/
  | node (id label : String) (type : NodeType) (cause : NodeError)
deriving DecidableEq

/-- The sentence for an error during a run. -/
def WalkError.message : WalkError → String
  | cycle id label =>
    "Circular dependency detected: Node \"" ++ label ++ "\" (" ++ id
      ++ ") has already been executed"
  | dangling target => "Node connection error: Target node \"" ++ target ++ "\" not found"
  | node _ label type cause =>
    "Error executing node \"" ++ label ++ "\" (" ++ type.name ++ "): " ++ cause.message

/-- Why a run failed. -/
inductive RunError where
  | emptyWorkflow
  | missingStart
  | missingEnd
  /-- The run stopped after the given last entry of its trace. -/
  | stopped (cause : WalkError) (last : Option TraceEntry)

/-- The sentence for an error of a run. -/
def RunError.message : RunError → String
  | emptyWorkflow => "Cannot execute workflow: No nodes found"
  | missingStart =>
    "Cannot execute workflow: No start node found. Add a start node to begin execution."
  | missingEnd =>
    "Cannot execute workflow: No end node found. Add an end node to complete execution."
  | stopped cause (some last) =>
    "Execution failed at node \"" ++ last.nodeLabel ++ "\" (" ++ last.nodeType ++ "): "
      ++ cause.message
  | stopped cause none => "Execution failed: " ++ cause.message

end Workflow
