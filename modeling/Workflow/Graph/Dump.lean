import Workflow.Graph.Basic
import Workflow.Json.Writer

/-!
# Workflows as values

The members under which the parts of a workflow are saved. The members that a payload was given
beside the ones it knows come after those, in the order in which they were given. As a JSON document
a part of a workflow has no non-finite doubles, and what it may hold of any kind is nested up to a
limit.
-/

namespace Workflow

/-- Why a value cannot be part of a JSON document. -/
inductive DumpFault where
  /-- It is nested too deep. -/
  | tooDeep
  /-- The name of a member holds half a surrogate pair. -/
  | brokenName
deriving DecidableEq

/-- The sentence for a value that cannot be part of a JSON document. -/
def DumpFault.message : DumpFault → String
  | tooDeep => "Maximum serialization depth exceeded"
  | brokenName => "surrogates not allowed"

/-- The levels of values that a JSON document has room for. A value without others takes one. -/
def maxDepth : Nat := 255

mutual

/--
The value as a part of a JSON document with room for some levels: `null` stands in place of every
non-finite double.
-/
def Value.dump (room : Nat) : Value → Except DumpFault Value
  | .float x =>
    if room = 0 then .error .tooDeep else .ok (if Double.isFinite x then .float x else .null)
  | .list items =>
    if room = 0 then .error .tooDeep else (dumpItems (room - 1) items).map .list
  | .object members =>
    if room = 0 then .error .tooDeep else (dumpMembers (room - 1) members).map .object
  | v => if room = 0 then .error .tooDeep else .ok v

/-- The items of a list as parts of a JSON document. -/
def Value.dumpItems (room : Nat) : List Value → Except DumpFault (List Value)
  | [] => .ok []
  | v :: vs => do
    let first ← v.dump room
    let others ← dumpItems room vs
    .ok (first :: others)

/-- The members of an object as parts of a JSON document. -/
def Value.dumpMembers (room : Nat) :
    List (String × Value) → Except DumpFault (List (String × Value))
  | [] => .ok []
  | (name, v) :: rest => do
    if Text.hasHalf name then throw .brokenName
    let first ← v.dump room
    let others ← dumpMembers room rest
    .ok ((name, first) :: others)

end

/-- The saved members of a position. -/
def Position.toValue (p : Position) : Value :=
  .object [("x", .float p.x), ("y", .float p.y)]

namespace Payload

/-- The members that a payload knows; `received` names the one of an end node. -/
def known (received : String) : Payload → List (String × Value)
  | start d => [("label", .str d.label), ("payload", .str d.payload)]
  | transform d =>
    [("label", .str d.label), ("operation", .str d.operation), ("value", d.operand.toValue)]
  | finish d => [("label", .str d.label), (received, d.received)]

/-- The saved members of a payload. -/
def members (p : Payload) : List (String × Value) :=
  p.known "receivedPayload" ++ p.extras

/--
The members of a payload under the names by which an update addresses them. The one of an end node
then has another name than in a saved workflow, and an extra member of that name takes its place.
-/
def addressed (p : Payload) : List (String × Value) :=
  p.extras.foldl (fun found m => Value.setMember found m.1 m.2) (p.known "received_payload")

/-- A payload as a saved value. -/
def toValue (p : Payload) : Value :=
  .object p.members

/--
A payload as a JSON document with room for some levels of values. What a payload may hold of any
kind loses its non-finite doubles; the operand of a transform node, which is known to be a number or
a text, keeps them.
-/
def dumpWithin (room : Nat) (p : Payload) : Except DumpFault Value := do
  let known ←
    match p with
    | finish d => do
      let received ← d.received.dump room
      .ok [("label", .str d.label), ("receivedPayload", received)]
    | p => .ok (p.known "receivedPayload")
  let extras ← Value.dumpMembers room p.extras
  .ok (.object (known ++ extras))

/-- A payload as a JSON document. -/
def dump (p : Payload) : Except DumpFault Value :=
  p.dumpWithin maxDepth

end Payload

/-- The saved members of a node around those of its payload. -/
def Node.around (n : Node) (data : Value) : Value :=
  .object [("id", .str n.id), ("type", .str n.type.name), ("position", n.position.toValue),
    ("data", data)]

/-- A node as a saved value. -/
def Node.toValue (n : Node) : Value :=
  n.around n.payload.toValue

/-- A node as a JSON document. Being part of a node takes a level of its payload's values. -/
def Node.dump (n : Node) : Except DumpFault Value :=
  (n.payload.dumpWithin (maxDepth - 1)).map n.around

/-- The saved members of an edge. -/
def Edge.toValue (e : Edge) : Value :=
  .object [("id", .str e.id), ("source", .str e.source), ("target", .str e.target)]

/-- The saved members of a graph around its nodes. -/
def Graph.around (g : Graph) (nodes : List Value) : List (String × Value) :=
  [("nodes", .list nodes), ("edges", .list (g.edges.map Edge.toValue))]

/-- The saved members of a graph. -/
def Graph.members (g : Graph) : List (String × Value) :=
  g.around (g.nodes.map Node.toValue)

/-- A graph as a value. -/
def Graph.toValue (g : Graph) : Value :=
  .object g.members

/-- A graph as a JSON document with some members after its own. -/
def Graph.dumpWith (g : Graph) (more : List (String × Value)) : Except DumpFault Value :=
  (g.nodes.mapM Node.dump).map fun nodes => .object (g.around nodes ++ more)

/-- A graph as a JSON document. -/
def Graph.dump (g : Graph) : Except DumpFault Value :=
  g.dumpWith []

/-- A text that may be missing. -/
def Value.ofText? : Option String → Value
  | some s => .str s
  | none => .null

/-- The members that an editor's state has beside those of its graph. -/
def EditorState.flags (s : EditorState) : List (String × Value) :=
  [("selectedNodeId", .ofText? s.selected), ("isExecuting", .bool s.executing)]

/-- An editor's state as a value. -/
def EditorState.toValue (s : EditorState) : Value :=
  .object (s.graph.members ++ s.flags)

/-- An editor's state as a JSON document. -/
def EditorState.dump (s : EditorState) : Except DumpFault Value :=
  s.graph.dumpWith s.flags

/-- The members that a saved workflow has beside those of its graph. -/
def Export.stamp (w : Export) : List (String × Value) :=
  [("version", .str w.version), ("timestamp", .int w.timestamp)]

/-- A saved workflow as a value. -/
def Export.toValue (w : Export) : Value :=
  .object (w.graph.members ++ w.stamp)

/-- A saved workflow as a JSON document. -/
def Export.dump (w : Export) : Except DumpFault Value :=
  w.graph.dumpWith w.stamp

/-- The text of a saved workflow file. -/
def Export.fileText (w : Export) : Except DumpFault String :=
  w.dump.map (Json.write .file)

/-- The members of a trace entry with the given input and output. -/
def TraceEntry.around (t : TraceEntry) (input output : Value) : Value :=
  .object [("nodeId", .str t.nodeId), ("nodeLabel", .str t.nodeLabel),
    ("nodeType", .str t.nodeType), ("input", input), ("output", output),
    ("timestamp", .int t.timestamp)]

/-- A trace entry as a value. -/
def TraceEntry.toValue (t : TraceEntry) : Value :=
  t.around t.input t.output

/-- A trace entry as a JSON document. -/
def TraceEntry.dump (t : TraceEntry) : Except DumpFault Value := do
  let input ← t.input.dump maxDepth
  let output ← t.output.dump maxDepth
  .ok (t.around input output)

end Workflow
