import Workflow.Graph.Cycle
import Workflow.Text.Quoted

/-!
# Problems of a graph

What keeps a graph from being a tree that can be run: one start node, end nodes without outputs, one
input for every other node, no cycle, and nothing out of reach.
-/

namespace Workflow

/-- Something wrong with a graph. -/
inductive Problem where
  | duplicateNode (id : String)
  | duplicateEdge (source target : String)
  | unknownSource (edge source : String)
  | unknownTarget (edge target : String)
  | endWithOutput (edge source : String)
  | startWithInput (edge target : String)
  | manyInputs (target : String) (count : Nat)
  | noStart
  /-- Several start nodes: the first runs, the others do not. -/
  | manyStarts (first : String) (ignored : List String)
  | noEnd
  | cycle (ids : List String)
  | tooManyCycles
  | unreachable (id : String)
deriving DecidableEq

/-- At most this many cycles are reported. -/
def maxCycles : Nat := 100

namespace Problem

/-- The sentence for a problem. -/
def message : Problem → String
  | duplicateNode id => "Duplicate node ID: '" ++ id ++ "'"
  | duplicateEdge source target =>
    "Duplicate edge from '" ++ source ++ "' to '" ++ target ++ "'"
  | unknownSource edge source => "Edge " ++ edge ++ ": source '" ++ source ++ "' not found"
  | unknownTarget edge target => "Edge " ++ edge ++ ": target '" ++ target ++ "' not found"
  | endWithOutput edge source =>
    "Edge " ++ edge ++ ": end node '" ++ source ++ "' cannot have outputs"
  | startWithInput edge target =>
    "Edge " ++ edge ++ ": start node '" ++ target ++ "' cannot have inputs"
  | manyInputs target count =>
    "Node '" ++ target ++ "' has " ++ toString count ++ " inputs (at most one allowed)"
  | noStart => "No start node found"
  | manyStarts first ignored =>
    "Multiple start nodes: only '" ++ first ++ "' runs, " ++ Text.quotedList ignored
      ++ " are ignored"
  | noEnd => "No end node found"
  | cycle ids => "Cycle detected: " ++ " -> ".intercalate ids
  | tooManyCycles =>
    "Too many cycles to validate (>" ++ toString maxCycles ++ "). Simplify graph structure."
  | unreachable id => "Node '" ++ id ++ "' is not reachable from the start node"

end Problem

/-- Every item that equals an earlier one. -/
def repeated {α : Type} [DecidableEq α] (earlier : List α) : List α → List α
  | [] => []
  | a :: rest => if a ∈ earlier then a :: repeated earlier rest else repeated (a :: earlier) rest

namespace Graph

/-- The type of the first node of the given id. -/
def typeOf? (g : Graph) (id : String) : Option NodeType :=
  (g.find? id).map Node.type

/-- What is wrong with the ends of an edge. -/
def edgeProblems (g : Graph) (e : Edge) : List Problem :=
  (if (g.find? e.source).isNone then [.unknownSource e.id e.source] else [])
    ++ (if (g.find? e.target).isNone then [.unknownTarget e.id e.target] else [])
    ++ (if g.typeOf? e.source = some .finish then [.endWithOutput e.id e.source] else [])
    ++ (if g.typeOf? e.target = some .start then [.startWithInput e.id e.target] else [])

/-- The ids that are the target of several edges. -/
def inputProblems (g : Graph) : List Problem :=
  let targets := g.edges.map Edge.target
  targets.eraseDups.filterMap fun id =>
    if 1 < targets.count id then some (.manyInputs id (targets.count id)) else none

/-- Whether there are start and end nodes, and not too many. -/
def endpointProblems (g : Graph) : List Problem :=
  let starts :=
    match (g.nodes.filter fun n => n.type = .start).map Node.id with
    | [] => [.noStart]
    | [_] => []
    | first :: ignored => [.manyStarts first ignored]
  starts ++ (if g.hasEnd then [] else [.noEnd])

/-- The cycles of the graph, or the first of them and the remark that there are more. -/
def cycleProblems (g : Graph) : List Problem :=
  let found := g.cycles (maxCycles + 1)
  if maxCycles < found.length then (found.take maxCycles).map .cycle ++ [.tooManyCycles]
  else found.map .cycle

/-- The nodes that cannot be reached from the start node. -/
def reachProblems (g : Graph) : List Problem :=
  match g.start? with
  | none => []
  | some start =>
    let reached := g.reachable start.id
    (g.nodes.filter fun n => !reached.contains n.id).map fun n => .unreachable n.id

/-- Everything that is wrong with a graph. -/
def problems (g : Graph) : List Problem :=
  (repeated [] (g.nodes.map Node.id)).map .duplicateNode
    ++ (repeated [] (g.edges.map fun e => (e.source, e.target))).map
      (fun pair => .duplicateEdge pair.1 pair.2)
    ++ g.edges.flatMap g.edgeProblems
    ++ g.inputProblems
    ++ g.endpointProblems
    ++ g.cycleProblems
    ++ g.reachProblems

end Graph

end Workflow
