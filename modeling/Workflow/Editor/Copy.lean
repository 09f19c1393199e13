import Workflow.Graph.Dump

/-!
# Copying states

History keeps deep copies of an editor's state. A copy is made by recursion, for whose calls the
stack has room up to some level of nesting. It has room for all that is a JSON document.
-/

namespace Workflow

mutual

/-- The levels of a value. A value without others is one. -/
def Value.depth : Value → Nat
  | .list items => depthOfItems items + 1
  | .object members => depthOfMembers members + 1
  | _ => 1

/-- The most levels of an item of a list. -/
def Value.depthOfItems : List Value → Nat
  | [] => 0
  | v :: vs => max v.depth (depthOfItems vs)

/-- The most levels of a member of an object. -/
def Value.depthOfMembers : List (String × Value) → Nat
  | [] => 0
  | (_, v) :: rest => max v.depth (depthOfMembers rest)

end

/-- The most levels of what a payload may hold of any kind. -/
def Payload.depth : Payload → Nat
  | .finish d => max d.received.depth (Value.depthOfMembers d.extras)
  | p => Value.depthOfMembers p.extras

/-- The levels of values that a deep copy can go through. -/
structure CopyRoom where
  levels : Nat
  /-- The room of a JSON document is less. -/
  documents : maxDepth ≤ levels

/-- The room that there commonly is. -/
def CopyRoom.standard : CopyRoom :=
  ⟨490, by decide⟩

/-- Whether there is room for a deep copy of a state. -/
def EditorState.IsCopyable (s : EditorState) (room : CopyRoom) : Prop :=
  ∀ n ∈ s.graph.nodes, n.payload.depth ≤ room.levels

instance (s : EditorState) (room : CopyRoom) : Decidable (s.IsCopyable room) :=
  inferInstanceAs (Decidable (∀ n ∈ s.graph.nodes, n.payload.depth ≤ room.levels))

end Workflow
