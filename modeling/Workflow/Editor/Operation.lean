import Workflow.Editor.Edit
import Workflow.Editor.Storage
import Workflow.Run.Basic

/-!
# Operations of an editor

Everything that can be done with an editor, each operation as a function from an editor to its
outcome. Operations that read their arguments fail before they change anything.
-/

namespace Workflow.Editor

/-- A new editor. -/
def new (config : Config) (autosaving : Bool) (epoch : Int) : Editor :=
  { config := config, autosaving := autosaving, epoch := epoch }

/-- A number with at least nine digits. -/
def serialText (n : Nat) : String :=
  let digits := Nat.toDigits 10 n
  String.ofList (List.replicate (9 - digits.length) '0' ++ digits)

/-- The id of the next node of a type: its type, the time and a number of its own. -/
def nextId (e : Editor) (t : NodeType) : String :=
  t.name ++ "-" ++ toString e.time ++ "-" ++ serialText (e.serial + 1)

/-- Reads the payload of a new node; none given, the type's own is taken. -/
def newNode (id : String) (t : NodeType) (position : Position) (data : Document) : Reading Node :=
  match data with
  | .null => .ok ⟨id, position, Payload.standard t⟩
  | .object members => (Payload.readMembers members t).map fun p => ⟨id, position, p⟩
  | d => ((Payload.readAny d).within (.name "data")).andThen fun p => Node.join id t position p

/-- Adds a node, made of its id, its type and the position it was given, and answers its id. -/
def addNodeBy (e : Editor) (type position : Document)
    (make : String → NodeType → Position → Reading Node) : Outcome String :=
  match NodeType.ofDocument? type with
  | none => e.fail (.unknownNodeType type)
  | some t =>
    let id := e.nextId t
    let e := { e with serial := e.serial + 1 }
    let given := if position.isVoid then .object [] else position
    e.read "Position" (Position.read given) fun position =>
      e.read "Node" (make id t position) fun n =>
        let state := { e.state with graph := e.state.graph.addNode n }
        ({ e with state := state }.announce .nodes).answering id

/-- Adds a node and answers its id. -/
def addNode (e : Editor) (type position data : Document) : Outcome String :=
  e.addNodeBy type position fun id t position => newNode id t position data

/-- Lays members over the payload of a node. An unknown id is ignored. -/
def updateNode (e : Editor) (id : String) (changes : Document) : Outcome Unit :=
  match e.state.graph.find? id with
  | none => e.done ()
  | some n =>
    match changes with
    | .object members =>
      e.read n.type.payloadModel (n.payload.update members) fun p =>
        let graph := e.state.graph.changeNode id fun n => { n with payload := p }
        { e with state := { e.state with graph := graph } }.announce .nodes
    | d => e.fail (.notMapping d.kind)

/-- Moves a node. An unknown id is ignored. -/
def moveNode (e : Editor) (id : String) (position : Document) : Outcome Unit :=
  match e.state.graph.find? id with
  | none => e.done ()
  | some _ =>
    e.read "Position" (Position.read position) fun p =>
      let graph := e.state.graph.changeNode id fun n => { n with position := p }
      { e with state := { e.state with graph := graph } }.announce .nodes

/-- Deletes a node with its edges; a deleted node is no longer selected. -/
def deleteNode (e : Editor) (id : String) : Outcome Unit :=
  let selected := if e.state.selected = some id then none else e.state.selected
  let state := { e.state with graph := e.state.graph.deleteNode id, selected := selected }
  { e with state := state }.announce .nodes

/-- Adds an edge, unless that would break the rules. -/
def addEdge (e : Editor) (source target : String) : Outcome (Option Edge) :=
  if e.state.graph.admits source target then
    let edge := Edge.between source target
    let state := { e.state with graph := e.state.graph.addEdge edge }
    ({ e with state := state }.announce .edges).answering (some edge)
  else e.done none

/-- Removes the edges of an id. -/
def removeEdge (e : Editor) (id : String) : Outcome Unit :=
  let state := { e.state with graph := e.state.graph.removeEdge id }
  { e with state := state }.announce .edges

/-- Selects a node, or none. -/
def select (e : Editor) (id : Option String) : Outcome Unit :=
  { e with
    state := { e.state with selected := id }
    misfits := { e.misfits with selected := none } }.announce .selection

/-- The selected node. An empty id selects none, nor does a misfit. -/
def selectedNode (e : Editor) : Option Node :=
  match e.misfits.selected, e.state.selected with
  | none, some id => if id.isEmpty then none else e.state.graph.find? id
  | _, _ => none

/-- Sets the executing flag. -/
def setExecuting (e : Editor) (value : Bool) : Outcome Unit :=
  { e with
    state := { e.state with executing := value }
    misfits := { e.misfits with executing := none } }.announce .executing

/-- Runs the graph; the executing flag is set meanwhile. -/
def execute (e : Editor) : Outcome (List TraceEntry) :=
  (e.setExecuting true).andThen fun e _ =>
    let run := e.state.graph.execute fun _ => e.time
    ({ e with trace := run.trace }.setExecuting false).andThen fun e _ =>
      match run.error? with
      | none => e.done run.trace
      | some error => e.fail (.run error)

/-- Replaces the graph by that of a saved workflow that is still to be read. -/
def importWorkflow (e : Editor) (d : Document) : Outcome Unit :=
  e.read "WorkflowExport" (Export.read e.time d) e.importExport

/-- Starts over with an empty graph. -/
def clear (e : Editor) : Outcome Unit :=
  e.replaceState {}

/-- What a timer does when its call comes through. -/
def fire (e : Editor) : TimerName → Outcome Unit
  | .applying => { e with applying := false }.done ()
  | .recording => if e.inAction then e.done () else (e.recordState false).answering ()
  | .saving => e.flush

/-- Takes a call from the clock. -/
def deliver (e : Editor) (call : Call TimerName) : Outcome Unit :=
  let t := e.timer call.owner
  let e := { e with clock := e.clock.deliver call }
  if t.expects call.generation then
    (e.setTimer call.owner (t.deliver call.generation)).fire call.owner
  else e.done ()

/-- Delivers calls one after the other, up to the first that fails. -/
def deliverAll (e : Editor) : List (Call TimerName) → Outcome Unit
  | [] => e.done ()
  | call :: later => (e.deliver call).andThen fun e _ => e.deliverAll later

/-- Advances the clock by some milliseconds and delivers what falls due. -/
def advance (e : Editor) (milliseconds : Int) : Outcome Unit :=
  let target := e.clock.now + milliseconds
  (e.deliverAll (e.clock.dueBy target)).andThen fun e _ =>
    { e with clock := { e.clock with now := target } }.done ()

end Workflow.Editor
