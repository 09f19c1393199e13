import Workflow.Graph.Reach
import Workflow.Text.Markup
import Workflow.Value.Plain

/-!
# Workflows as trees

A workflow is shown as a tree that grows from its start node along the edges. A node that is met
again, or an edge that leads nowhere, is marked; the nodes that the tree does not reach are listed
beside it, so that nothing is hidden.
-/

namespace Workflow

/-- One place in the tree of a workflow. -/
inductive Branch where
  /-- A node with what its edges lead to. -/
  | node (n : Node) (children : List Branch)
  /-- An edge back to a node that has its place already. -/
  | again (id : String)
  /-- An edge to an id that no node has. -/
  | missing (id : String)

namespace Graph

/--
The branches that edges to the given targets lead to, and the ids that have no place in the tree
after them. `unseen` are the ids that have none before them.
-/
def branches (g : Graph) (unseen : List String) :
    List String → List Branch × { left : List String // left.length ≤ unseen.length }
  | [] => ([], ⟨unseen, Nat.le_refl _⟩)
  | target :: later =>
    match g.find? target with
    | none =>
      let (siblings, left) := g.branches unseen later
      (.missing target :: siblings, left)
    | some n =>
      if h : target ∈ unseen then
        have shorter : (unseen.erase target).length < unseen.length := by
          rw [List.length_erase_of_mem h]
          exact Nat.sub_lt (List.length_pos_of_mem h) Nat.one_pos
        let (children, ⟨between, le⟩) := g.branches (unseen.erase target) (g.targets target)
        have shorterStill : between.length < unseen.length := Nat.lt_of_le_of_lt le shorter
        let (siblings, ⟨left, le'⟩) := g.branches between later
        (.node n children :: siblings, ⟨left, by omega⟩)
      else
        let (siblings, left) := g.branches unseen later
        (.again target :: siblings, left)
termination_by targets => (unseen.length, targets.length)

/-- The branch of the start node, and the nodes that have no place in it. -/
def growth (g : Graph) (start : Node) : Branch × List Node :=
  let (children, left) := g.branches (g.ids.erase start.id) (g.targets start.id)
  (.node start children, g.nodes.filter fun n => left.1.contains n.id)

end Graph

mutual

/-- The nodes of a branch. -/
def Branch.nodes : Branch → List Node
  | .node n children => n :: nodesOf children
  | .again _ | .missing _ => []

/-- The nodes of some branches. -/
def Branch.nodesOf : List Branch → List Node
  | [] => []
  | b :: bs => b.nodes ++ nodesOf bs

end

mutual

/--
The places of a branch from top to bottom, each with how many calls lead to it and with its node,
unless that has its place already. An edge that leads nowhere takes no call.
-/
def Branch.places (depth : Nat) : Branch → List (Nat × Option Node)
  | .node n children => (depth, some n) :: placesOf (depth + 1) children
  | .again _ => [(depth, none)]
  | .missing _ => []

/-- The places of some branches. -/
def Branch.placesOf (depth : Nat) : List Branch → List (Nat × Option Node)
  | [] => []
  | b :: bs => b.places depth ++ placesOf depth bs

end

/-- The places of the tree of a graph, in the order in which they are drawn. -/
def Graph.places (g : Graph) : List (Nat × Option Node) :=
  match g.start? with
  | none => []
  | some start =>
    let (branch, orphans) := g.growth start
    branch.places 1 ++ orphans.map fun n => (1, some n)

/-- The most digits of an integer in what is shown of a payload. -/
def Payload.mostDigits : Payload → Nat
  | .transform d => d.operand.toValue.mostDigits
  | _ => 0

/-- A tree of lines of markup. -/
inductive Tree where
  | mk (label : String) (children : List Tree)

mutual

/-- The texts of a tree. -/
def Tree.texts : Tree → List String
  | .mk label children => label :: textsOf children

/-- The texts of some trees. -/
def Tree.textsOf : List Tree → List String
  | [] => []
  | t :: ts => t.texts ++ textsOf ts

end

/-- What a node does, in a few words. -/
def Payload.description : Payload → String
  | .transform d =>
    match d.operand with
    | .none => Text.escapeMarkup d.operation
    | operand => Text.escapeMarkup (d.operation ++ "(" ++ operand.toValue.listed ++ ")")
  | _ => ""

/-- The symbol and the colour of a type of node. -/
def NodeType.style : NodeType → String × String
  | start => ("[>]", "green")
  | transform => ("[~]", "cyan")
  | finish => ("[#]", "magenta")

/-- The line for a node. -/
def Node.line (n : Node) : String :=
  let (symbol, color) := n.type.style
  let text := "[" ++ color ++ "]" ++ Text.escapeMarkup symbol ++ " " ++ Text.escapeMarkup n.label
    ++ "[/] [dim]" ++ Text.escapeMarkup n.id ++ "[/]"
  let description := n.payload.description
  if description.isEmpty then text else text ++ " " ++ description

mutual

/-- A branch as lines of markup. -/
def Branch.toTree : Branch → Tree
  | .node n children => .mk n.line (toTrees children)
  | .again id => .mk ("[red]↩ " ++ Text.escapeMarkup id ++ " (cycle)[/]") []
  | .missing id => .mk ("[red]✗ missing node " ++ Text.escapeMarkup id ++ "[/]") []

/-- Branches as lines of markup. -/
def Branch.toTrees : List Branch → List Tree
  | [] => []
  | b :: bs => b.toTree :: toTrees bs

end

/-- The tree of a workflow under a title. -/
def Graph.tree (g : Graph) (title : String) : Tree :=
  let trunk :=
    match g.start? with
    | none => [.mk "[red]Error: No start node[/]" []]
    | some start =>
      let (branch, orphans) := g.growth start
      let rest :=
        if orphans.isEmpty then []
        else [.mk "[dim]Unreachable[/]" (orphans.map fun n => .mk n.line [])]
      branch.toTree :: rest
  .mk ("[bold]" ++ Text.escapeMarkup title ++ "[/]") trunk

end Workflow
