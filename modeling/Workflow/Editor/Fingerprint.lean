import Workflow.Graph.Dump

/-!
# Comparing states

Two states of an editor are similar if they differ by no more than jitter: the same nodes and edges
in the same order, with equal payloads, and no node more than one unit away on either axis. History
goes by a stricter text, in which positions are rounded to whole units.
-/

namespace Workflow

/-- How far apart the positions of similar nodes may be on either axis. -/
def positionTolerance : Float := 1.0

/-- Whether two coordinates lie within the tolerance. -/
def nearby (a b : Float) : Bool :=
  !(positionTolerance < (a - b).abs)

/-- Whether two nodes differ by no more than jitter, unless a payload is no JSON document. -/
def Node.similar (a b : Node) : Except DumpFault Bool :=
  if a.id = b.id && a.type = b.type && nearby a.position.x b.position.x
      && nearby a.position.y b.position.y then do
    let x ← a.payload.dump
    let y ← b.payload.dump
    .ok (x.equal y)
  else .ok false

/-- Whether nodes are similar one by one, up to the first that are not. -/
def similarNodes : List Node → List Node → Except DumpFault Bool
  | a :: as, b :: bs => do
    if ← a.similar b then similarNodes as bs else .ok false
  | _, _ => .ok true

/-- Whether two states differ by no more than jitter; selection and executing flag do not count. -/
def EditorState.similar (a b : EditorState) : Except DumpFault Bool :=
  if a.graph.nodes.length = b.graph.nodes.length ∧ a.graph.edges.length = b.graph.edges.length then
    (similarNodes a.graph.nodes b.graph.nodes).map fun same =>
      same && a.graph.edges = b.graph.edges
  else .ok false

/-- Why a state has no fingerprint. -/
inductive FingerprintFault where
  /-- A position is not finite. -/
  | notFinite (e : Double.NoInteger)
  /-- A payload is no JSON document. -/
  | unfit (e : DumpFault)
deriving DecidableEq

/-- The sentence for a state without a fingerprint. -/
def FingerprintFault.message : FingerprintFault → String
  | notFinite e => e.message
  | unfit e => e.message

/-- A coordinate rounded to a whole unit, a half going up. -/
def roundHalfUp (x : Float) : Except Double.NoInteger Int :=
  Double.floor (x + 0.5)

/-- A node with its position rounded. -/
def Node.simplified (n : Node) : Except FingerprintFault Value := do
  let x ← (roundHalfUp n.position.x).mapError .notFinite
  let y ← (roundHalfUp n.position.y).mapError .notFinite
  let data ← n.payload.dump.mapError .unfit
  .ok (.object [("id", .str n.id), ("type", .str n.type.name),
    ("position", .object [("x", .int x), ("y", .int y)]), ("data", data)])

/-- The text by which history tells states apart, if there is one. -/
def EditorState.fingerprint (s : EditorState) : Except FingerprintFault String := do
  let nodes ← s.graph.nodes.mapM Node.simplified
  .ok (Json.write .fingerprint
    (.object [("nodes", .list nodes), ("edges", .list (s.graph.edges.map Edge.toValue))]))

/-- What the recorder watches: the numbers of nodes and edges, and the payloads. -/
structure Signals where
  nodes : Nat := 0
  edges : Nat := 0
  payloads : String := ""
deriving DecidableEq

/--
The signals of a graph, unless a payload is no JSON document; the payloads of its nodes stand one
after the other.
-/
def Graph.signals (g : Graph) : Except DumpFault Signals := do
  let payloads ← g.nodes.mapM fun n => n.payload.dump
  .ok ⟨g.nodes.length, g.edges.length, "|".intercalate (payloads.map (Json.write .fingerprint))⟩

end Workflow
