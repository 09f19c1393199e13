import Workflow.Value

/-!
# Workflow graphs

A workflow is a list of nodes and a list of edges. A node's payload decides what it does: a start
node emits its payload text read as JSON, a transform node applies one named operation to its input,
and an end node passes its input through. A payload keeps every member it was given, the ones it
knows and the others.
-/

namespace Workflow

/-- The three types of node. -/
inductive NodeType where
  | start
  | transform
  | finish
deriving DecidableEq

namespace NodeType

/-- The name of a type in a workflow file. -/
def name : NodeType → String
  | start => "start"
  | transform => "transform"
  | finish => "end"

/-- The type of the given name. -/
def ofName? (s : String) : Option NodeType :=
  if s = "start" then some start
  else if s = "transform" then some transform
  else if s = "end" then some finish
  else none

theorem ofName?_name (t : NodeType) : ofName? t.name = some t := by
  cases t <;> decide

/-- The name of the payload that nodes of a type carry. -/
def payloadModel : NodeType → String
  | start => "StartNodeData"
  | transform => "TransformNodeData"
  | finish => "EndNodeData"

end NodeType

/-- Where a node stands on the canvas. -/
structure Position where
  x : Float := 0
  y : Float := 0
deriving DecidableEq

/-- What an operation is configured with. -/
inductive Operand where
  | none
  | text (s : String)
  | int (n : Int)
  | float (x : Float)
deriving DecidableEq

/-- The operand as a value. -/
def Operand.toValue : Operand → Value
  | none => .null
  | text s => .str s
  | int n => .int n
  | float x => .float x

/-- What a start node carries: the JSON text it emits. -/
structure StartData where
  label : String
  payload : String := ""
  extras : List (String × Value) := []

/-- What a transform node carries: the name of its operation and the operation's operand. -/
structure TransformData where
  label : String
  operation : String := "uppercase"
  operand : Operand := .none
  extras : List (String × Value) := []

/-- What an end node carries. -/
structure EndData where
  label : String
  received : Value := .null
  extras : List (String × Value) := []

/-- What a node carries. -/
inductive Payload where
  | start (data : StartData)
  | transform (data : TransformData)
  | finish (data : EndData)

namespace Payload

/-- The type of the nodes that carry such a payload. -/
def type : Payload → NodeType
  | start _ => .start
  | transform _ => .transform
  | finish _ => .finish

/-- The label shown for the node. -/
def label : Payload → String
  | start d => d.label
  | transform d => d.label
  | finish d => d.label

/-- The members a payload was given beside the ones it knows. -/
def extras : Payload → List (String × Value)
  | start d => d.extras
  | transform d => d.extras
  | finish d => d.extras

/-- The payload of a new node. -/
def standard : NodeType → Payload
  | .start => start { label := "Start", payload := "\x7b\"message\": \"hello\"\x7d" }
  | .transform => transform { label := "Transform" }
  | .finish => finish { label := "End" }

end Payload

/-- A node. Its type is that of its payload. -/
structure Node where
  id : String
  position : Position := ⟨0, 0⟩
  payload : Payload

namespace Node

/-- The type of a node. -/
def type (n : Node) : NodeType := n.payload.type

/-- The label of a node. -/
def label (n : Node) : String := n.payload.label

end Node

/-- A directed edge between two nodes, which it names by their ids. -/
structure Edge where
  id : String
  source : String
  target : String
deriving DecidableEq

namespace Edge

/-- The id of an edge between two nodes. -/
def makeId (source target : String) : String :=
  "e" ++ source ++ "-" ++ target

/-- The edge between two nodes. -/
def between (source target : String) : Edge :=
  ⟨makeId source target, source, target⟩

end Edge

/-- The nodes and edges of a workflow. -/
structure Graph where
  nodes : List Node := []
  edges : List Edge := []

namespace Graph

/-- The first node of the given id. -/
def find? (g : Graph) (id : String) : Option Node :=
  g.nodes.find? fun n => n.id = id

theorem id_of_find? {g : Graph} {id : String} {n : Node} (h : g.find? id = some n) : n.id = id := by
  simpa using List.find?_some h

theorem mem_of_find? {g : Graph} {id : String} {n : Node} (h : g.find? id = some n) :
    n ∈ g.nodes :=
  List.mem_of_find?_eq_some h

theorem find?_eq_none_iff {g : Graph} {id : String} :
    g.find? id = none ↔ ∀ n ∈ g.nodes, n.id ≠ id := by
  simp [find?, List.find?_eq_none]

/-- The first start node. -/
def start? (g : Graph) : Option Node :=
  g.nodes.find? fun n => n.type = .start

/-- Whether some node is an end node. -/
def hasEnd (g : Graph) : Bool :=
  g.nodes.any fun n => n.type = .finish

/-- Whether a run may begin: there is a start node and an end node. -/
def canExecute (g : Graph) : Bool :=
  g.start?.isSome && g.hasEnd && 2 ≤ g.nodes.length

/-- The edges that leave a node, in order. -/
def edgesFrom (g : Graph) (id : String) : List Edge :=
  g.edges.filter fun e => e.source = id

end Graph

/-- The state of an editor: a graph, the selected node and the executing flag. -/
structure EditorState where
  graph : Graph := {}
  selected : Option String := none
  executing : Bool := false

/-- A workflow as it is saved. -/
structure Export where
  graph : Graph
  version : String
  timestamp : Int

/-- The version written into saved workflows. -/
def exportVersion : String := "1.0.0"

/-- One entry of the trace of a run. -/
structure TraceEntry where
  nodeId : String
  nodeLabel : String
  nodeType : String
  input : Value := .null
  output : Value := .null
  timestamp : Int

end Workflow
