import Workflow.Graph.Basic

/-!
# Reachability

Which nodes can be reached from others along edges. `explore` lists them in the order in which a
depth-first walk meets them.
-/

namespace Workflow

/--
The ids among `unseen` that can be reached from the ids of an agenda, in depth-first order. An id
that is not unseen, be it already met or unknown, is passed over.
-/
def explore (next : String → List String) (unseen : List String) : List String → List String
  | [] => []
  | id :: agenda =>
    if id ∈ unseen then id :: explore next (unseen.erase id) (next id ++ agenda)
    else explore next unseen agenda
termination_by agenda => (unseen.length, agenda.length)
decreasing_by
  · rename_i h
    have := List.length_erase_of_mem h
    have := List.length_pos_of_mem h
    exact Prod.Lex.left _ _ (by omega)
  · exact Prod.Lex.right _ (by simp)

namespace Graph

/-- The ids of the nodes, each once, in the order of their first nodes. -/
def ids (g : Graph) : List String :=
  (g.nodes.map Node.id).eraseDups

/-- The ids that the edges from a node lead to, in the order of the edges. -/
def targets (g : Graph) (id : String) : List String :=
  (g.edgesFrom id).map Edge.target

/-- The ids of the nodes that can be reached from the node of the given id, itself included. -/
def reachable (g : Graph) (id : String) : List String :=
  explore g.targets g.ids [id]

end Graph

end Workflow
