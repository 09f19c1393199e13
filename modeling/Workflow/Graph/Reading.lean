import Workflow.Graph.Basic
import Workflow.Json.Reader
import Workflow.Reading.Scalar

/-!
# Reading workflows

How the parts of a workflow are read from a document. Unknown members are ignored, but for those of
a payload, which are kept. The type of a node decides how its payload is read, and a payload that
does not fit hides all other issues of its node.
-/

namespace Workflow

open Reading

/-- Reads a position, given how its coordinates are read. -/
def Position.readWith (coordinate : Document → Reading Float) : Document → Reading Position :=
  Reading.object "Position" fun ms =>
    Position.mk <$> ms.optional "x" [] 0 coordinate <*> ms.optional "y" [] 0 coordinate

/-- Reads a position. -/
def Position.read : Document → Reading Position :=
  readWith double

/-- Reads a position that is a JSON text of its own: integers beyond all doubles are infinite. -/
def Position.readAlone : Document → Reading Position :=
  readWith roundedDouble

/-- Reads an operand of bytes, which are a text, or else no number either. -/
def Operand.ofBytes (b : List UInt8) : Reading Operand :=
  fromBytes b
    (failed [⟨[.name "str"], .brokenText⟩, ⟨[.name "int"], .unreadableInteger⟩,
      ⟨[.name "float"], .unreadableNumber⟩])
    fun s => ok (.text s)

/-- Reads an operand: a text or a number of either kind, a boolean counting as an integer. -/
def Operand.read : Document → Reading Operand
  | .null => ok .none
  | .str s => ok (.text s)
  | .int n => ok (.int n)
  | .float x => ok (.float x)
  | .bool b => ok (.int (Value.ofBool b))
  | .bytes b => ofBytes b
  | _ => failed
      [⟨[.name "str"], .notText⟩, ⟨[.name "int"], .notInteger⟩, ⟨[.name "float"], .notNumber⟩]

/-- The step to a member; only an integer of 64 bits is a step by itself. -/
def Document.Key.step (key : Document.Key) : Step :=
  match key with
  | .int n => if -wordBound ≤ n ∧ n < wordBound then .index n else .name key.listed
  | _ => .name key.listed

/-- Reads the members of a payload that are not among the ones it knows. -/
def readExtras (known : List String) : Members → Reading (List (String × Value))
  | [] => ok []
  | (.text name, d) :: rest =>
    if known.contains name then readExtras known rest
    else List.cons (name, d.toValue) <$> readExtras known rest
  | (key, _) :: rest =>
    List.cons <$> ((fault .nameNotText).within key.step : Reading (String × Value))
      <*> readExtras known rest

/-- Reads the payload of a start node. -/
def StartData.read (ms : Members) : Reading StartData :=
  StartData.mk <$> ms.required "label" [] text <*> ms.optional "payload" [] "" text
    <*> readExtras ["label", "payload"] ms

/-- Reads the payload of a transform node. -/
def TransformData.read (ms : Members) : Reading TransformData :=
  TransformData.mk <$> ms.required "label" [] text
    <*> ms.optional "operation" [] "uppercase" text
    <*> ms.optional "value" [] .none Operand.read
    <*> readExtras ["label", "operation", "value"] ms

/--
Reads the payload of an end node. What it received goes by two names; if both are there, the second
is an extra member like any other.
-/
def EndData.read (ms : Members) : Reading EndData :=
  let received := (ms.findFirst? ["receivedPayload", "received_payload"]).map (·.1)
  EndData.mk <$> ms.required "label" [] text
    <*> ms.optional "receivedPayload" ["received_payload"] .null value
    <*> readExtras ("label" :: received.toList) ms

namespace Payload

/-- Reads the payload of a node of the given type, whose members all have unbroken names. -/
def readKnown (ms : Members) : NodeType → Reading Payload
  | .start => start <$> StartData.read ms
  | .transform => transform <$> TransformData.read ms
  | .finish => finish <$> EndData.read ms

/--
Reads the payload of a node of the given type. Half a surrogate pair in the name of a member is a
fault of the payload as a whole, and hides all others.
-/
def readMembers (ms : Members) (t : NodeType) : Reading Payload :=
  if ms.any fun m => m.1.isBroken then fault .brokenText else readKnown ms t

/-- What is read as the payload of a type is of that type. -/
theorem type_of_readMembers {ms : Members} {t : NodeType} {p : Payload}
    (h : readMembers ms t = .ok p) : p.type = t := by
  rw [readMembers] at h
  split at h
  · cases h
  · cases t <;> obtain ⟨d, -, rfl⟩ := Reading.map_eq_ok_iff.1 h <;> rfl

/-- Reads a payload from a document. -/
def read (t : NodeType) : Document → Reading Payload :=
  Reading.object t.payloadModel fun ms => readMembers ms t

/--
The issues of a document that should be the payload of some type, seen from that type's model.
-/
def issuesAs (d : Document) (t : NodeType) : List Issue :=
  match (read t d).within (.name t.payloadModel) with
  | .ok _ => []
  | .failed issues => issues

/-- Reads a payload whose type is not known: the first type that fits. -/
def readAny (d : Document) : Reading Payload :=
  match read .start d, read .transform d, read .finish d with
  | .ok p, _, _ => ok p
  | _, .ok p, _ => ok p
  | _, _, .ok p => ok p
  | _, _, _ => failed (issuesAs d .start ++ issuesAs d .transform ++ issuesAs d .finish)

end Payload

/-- Reads the type of a node. -/
def NodeType.read : Document → Reading NodeType
  | .str s =>
    match ofName? s with
    | some t => ok t
    | none => if Text.hasHalf s then fault .brokenText else fault .notNodeType
  | _ => fault .notNodeType

/-- The type that a document names, if it names one. -/
def NodeType.ofDocument? : Document → Option NodeType
  | .str s => ofName? s
  | _ => none

namespace Node

/-- The sentence for a payload that belongs to another type of node. -/
def mismatch (id : String) (type : NodeType) (payload : Payload) : String :=
  "Node '" ++ id ++ "' of type '" ++ type.name ++ "' requires '" ++ type.payloadModel
    ++ "', got '" ++ payload.type.payloadModel ++ "'"

/-- Joins the parts of a node, whose payload has to belong to its type. -/
def join (id : String) (type : NodeType) (position : Position) (payload : Payload) :
    Reading Node :=
  if payload.type = type then ok ⟨id, position, payload⟩
  else fault (.broken (mismatch id type payload))

/-- Reads the members of a node, given how its payload is read. -/
def readParts (ms : Members) (payload : Reading Payload) : Reading Node :=
  let parts := (fun id type position payload => (id, type, position, payload))
    <$> ms.required "id" [] text <*> ms.required "type" [] NodeType.read
    <*> ms.optional "position" [] ⟨0, 0⟩ Position.read <*> payload
  parts.andThen fun (id, type, position, payload) => join id type position payload

/-- Reads the members of a node. -/
def readMembers (ms : Members) : Reading Node :=
  match (ms.find? "type").bind NodeType.ofDocument?, ms.find? "data" with
  | some t, some (.object data) =>
    (Payload.readMembers data t).andThen fun payload => readParts ms (ok payload)
  | _, _ => readParts ms (ms.required "data" [] Payload.readAny)

/-- Reads a node. -/
def read : Document → Reading Node :=
  Reading.object "Node" readMembers

/-- A node made of an id and a type that are read and a payload that is there already. -/
def ofPayload (id type : Document) (payload : Payload) : Reading Node :=
  readParts [(.text "id", id), (.text "type", type)] (ok payload)

end Node

/-- Reads an edge. -/
def Edge.read : Document → Reading Edge :=
  Reading.object "Edge" fun ms =>
    Edge.mk <$> ms.required "id" [] text <*> ms.required "source" [] text
      <*> ms.required "target" [] text

/-- Reads a list for which null stands for an empty one. -/
def readNullableList {α : Type} (read : Document → Reading α) : Document → Reading (List α)
  | .null => ok []
  | d => Reading.list read d

/-- Reads the members of a graph. -/
def Graph.readMembers (ms : Members) : Reading Graph :=
  Graph.mk <$> ms.optional "nodes" [] [] (readNullableList Node.read)
    <*> ms.optional "edges" [] [] (readNullableList Edge.read)

/-- Reads a graph. -/
def Graph.read : Document → Reading Graph :=
  Reading.object "WorkflowGraph" Graph.readMembers

/-- Reads the state of an editor. -/
def EditorState.read : Document → Reading EditorState :=
  Reading.object "WorkflowState" fun ms =>
    (fun nodes edges selected executing => EditorState.mk ⟨nodes, edges⟩ selected executing)
      <$> ms.optional "nodes" [] [] (Reading.list Node.read)
      <*> ms.optional "edges" [] [] (Reading.list Edge.read)
      <*> ms.optional "selectedNodeId" ["selected_node_id"] none (nullable text)
      <*> ms.optional "isExecuting" ["is_executing"] false boolean

/-- Reads a saved workflow; `now` is the time that a file without one gets. -/
def Export.read (now : Int) : Document → Reading Export :=
  Reading.object "WorkflowExport" fun ms =>
    Export.mk <$> Graph.readMembers ms <*> ms.optional "version" [] exportVersion text
      <*> ms.optional "timestamp" [] now integer

/-- Reads a trace entry; `now` is the time that an entry without one gets. -/
def TraceEntry.read (now : Int) : Document → Reading TraceEntry :=
  Reading.object "ExecutionLog" fun ms =>
    TraceEntry.mk <$> ms.required "nodeId" ["node_id"] text
      <*> ms.required "nodeLabel" ["node_label"] text
      <*> ms.required "nodeType" ["node_type"] text
      <*> ms.optional "input" [] .null value <*> ms.optional "output" [] .null value
      <*> ms.optional "timestamp" [] now integer

/-- Reads a JSON text, which has to be a whole document. -/
def Reading.ofText {α : Type} (read : Document → Reading α) (s : String) : Reading α :=
  match Json.read .file s with
  | .ok v => read (.ofValue v)
  | .error _ => fault .notJson

end Workflow
