import Workflow.Graph.Dump
import Workflow.Graph.Reading

/-!
# Editing a graph

The changes that an editor makes to its graph, as functions on graphs. An edge that would break the
rules of a workflow is refused: each pair of nodes is joined at most once, an end node has no
output, a start node no input, and any other node one input at most.
-/

namespace Workflow.Graph

/-- The graph with a node added at the end. -/
def addNode (g : Graph) (n : Node) : Graph :=
  { g with nodes := g.nodes ++ [n] }

/-- Changes the first node of the given id. -/
def changeFirst (id : String) (change : Node → Node) : List Node → List Node
  | [] => []
  | n :: rest => if n.id = id then change n :: rest else n :: changeFirst id change rest

/-- The graph with the first node of an id changed. -/
def changeNode (g : Graph) (id : String) (change : Node → Node) : Graph :=
  { g with nodes := changeFirst id change g.nodes }

/-- The graph without the nodes of an id and the edges at them. -/
def deleteNode (g : Graph) (id : String) : Graph where
  nodes := g.nodes.filter fun n => n.id ≠ id
  edges := g.edges.filter fun e => e.source ≠ id && e.target ≠ id

/-- Whether an edge between two ids keeps the rules. -/
def admits (g : Graph) (source target : String) : Bool :=
  match g.find? source, g.find? target with
  | some s, some t =>
    !(g.edges.any fun e => e.source = source && e.target = target)
      && s.type ≠ .finish && t.type ≠ .start && !(g.edges.any fun e => e.target = target)
  | _, _ => false

/-- The graph with an edge added at the end. -/
def addEdge (g : Graph) (e : Edge) : Graph :=
  { g with edges := g.edges ++ [e] }

/-- The graph without the edges of an id. -/
def removeEdge (g : Graph) (id : String) : Graph :=
  { g with edges := g.edges.filter fun e => e.id ≠ id }

/-- The nodes from which edges lead to a node. -/
def incoming (g : Graph) (id : String) : List Node :=
  (g.edges.filter fun e => e.target = id).filterMap fun e => g.find? e.source

/-- The nodes to which edges lead from a node. -/
def outgoing (g : Graph) (id : String) : List Node :=
  (g.edgesFrom id).filterMap fun e => g.find? e.target

end Workflow.Graph

namespace Workflow.Payload

/-- The members of a mapping laid over those of a payload. -/
def overlay (p : Payload) (changes : Members) : Members :=
  changes.foldl (fun ms change => Value.setMember ms change.1 change.2)
    (Document.ofMembers p.addressed)

/-- The payload with some members changed, read anew as a payload of the same type. -/
def update (p : Payload) (changes : Members) : Reading Payload :=
  readMembers (p.overlay changes) p.type

end Workflow.Payload
