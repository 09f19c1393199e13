import Workflow.Editor.Operation

/-!
# Arguments of any kind

Operations as a program calls them that hands over whatever it has. What is no text is the id of
nothing. As a selection or as an executing flag it is kept, and only read when history takes a
snapshot. The payload of a new node can be one that is there already.
-/

namespace Workflow.Editor

/-- Adds a node with a payload that is there already, which has to belong to the node's type. -/
def addNodeOf (e : Editor) (type position : Document) (payload : Payload) : Outcome String :=
  e.addNodeBy type position fun id t position => Node.join id t position payload

/-- Selects what is given: a node by its id, or none. -/
def selectGiven (e : Editor) : Value → Outcome Unit
  | .str id => e.select (some id)
  | .null => e.select none
  | v => { e with misfits := { e.misfits with selected := some v } }.announce .selection

/-- Sets the executing flag to what is given. -/
def setExecutingGiven (e : Editor) : Value → Outcome Unit
  | .bool value => e.setExecuting value
  | v => { e with misfits := { e.misfits with executing := some v } }.announce .executing

/-- The selection as it was given. -/
def givenSelection (e : Editor) : Value :=
  e.misfits.selected.getD (.ofText? e.state.selected)

/-- The executing flag as it was given. -/
def givenExecuting (e : Editor) : Value :=
  e.misfits.executing.getD (.bool e.state.executing)

/-- Deletes the node of an id. What is the id of nothing may still be what is selected. -/
def deleteGiven (e : Editor) : Value → Outcome Unit
  | .str id => e.deleteNode id
  | v =>
    if e.givenSelection.equal v then
      { e with
        state := { e.state with selected := none }
        misfits := { e.misfits with selected := none } }.announce .nodes
    else e.announce .nodes

/-- Removes the edges of an id. -/
def removeEdgeGiven (e : Editor) : Value → Outcome Unit
  | .str id => e.removeEdge id
  | _ => e.announce .edges

end Workflow.Editor
