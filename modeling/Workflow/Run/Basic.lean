import Workflow.Json.Reader
import Workflow.Run.Error

/-!
# Running a workflow

A run walks the graph depth first from the start node. Every node it reaches is evaluated on the
output of the node before it and leaves an entry in the trace. Reaching a node twice is an error, so
each entry belongs to another node and the walk ends.
-/

namespace Workflow

/-- The value that a start node emits. -/
def StartData.evaluate (d : StartData) : Except NodeError Value :=
  match Json.read .payload d.payload with
  | .ok v => .ok v
  | .error .malformed => .error .invalidPayload
  | .error (.tooDeep kind) => .error (.deepPayload kind)

/-- What a transform node makes of its input. -/
def TransformData.evaluate (d : TransformData) (input : Value) : Except NodeError Value :=
  match input with
  | .null => .error .missingInput
  | _ =>
    match Operation.applyNamed d.operation input d.operand.toValue with
    | .ok output => .ok output
    | .error (.refused cause) => .error (.refused d.operation cause)
    | .error .overflow => .error .overflow
    | .error .longInteger => .error .longInteger

/-- The output of a node for an input. -/
def Node.evaluate (n : Node) (input : Value) : Except NodeError Value :=
  match n.payload with
  | .start d => d.evaluate
  | .transform d => d.evaluate input
  | .finish _ => .ok input

/-- The trace of a run, and what stopped it if something did. -/
structure Walk where
  trace : List TraceEntry
  error? : Option WalkError

/-- The entry that a node leaves in the trace. -/
def Node.entry (n : Node) (input output : Value) (timestamp : Int) : TraceEntry where
  nodeId := n.id
  nodeLabel := n.label
  nodeType := n.type.name
  input := input
  output := output
  timestamp := timestamp

/-- Whether a trace has an entry for the node of the given id. -/
def visited (trace : List TraceEntry) (id : String) : Bool :=
  trace.any fun entry => entry.nodeId = id

/-- The nodes that a trace does not mention. -/
def Graph.unvisited (g : Graph) (trace : List TraceEntry) : List Node :=
  g.nodes.filter fun n => !visited trace n.id

/-- What waits to be visited: the ids of nodes with their inputs, the next one first. -/
abbrev Agenda := List (String × Value)

/-- The visits that follow a node: the targets of its edges in order, each with its output. -/
def Graph.visitsFrom (g : Graph) (id : String) (output : Value) : Agenda :=
  (g.edgesFrom id).map fun e => (e.target, output)

private theorem unvisited_length_lt {g : Graph} {trace : List TraceEntry} {n : Node}
    {entry : TraceEntry} (hn : n ∈ g.nodes) (hv : visited trace n.id = false)
    (he : entry.nodeId = n.id) :
    (g.unvisited (trace ++ [entry])).length < (g.unvisited trace).length := by
  have hsub : ∀ m : Node, visited trace m.id = true → visited (trace ++ [entry]) m.id = true := by
    intro m hm
    simp only [visited, List.any_append, Bool.or_eq_true]
    exact .inl hm
  have hnew : visited (trace ++ [entry]) n.id = true := by
    simp [visited, he]
  unfold Graph.unvisited
  generalize g.nodes = nodes at hn
  induction nodes with
  | nil => cases hn
  | cons m ms ih =>
    have hle : ((ms.filter fun k => !visited (trace ++ [entry]) k.id)).length
        ≤ (ms.filter fun k => !visited trace k.id).length := by
      rw [← List.countP_eq_length_filter, ← List.countP_eq_length_filter]
      refine List.countP_mono_left fun k _ hk => ?_
      cases hkv : visited trace k.id with
      | false => rfl
      | true => rw [hsub k hkv] at hk; cases hk
    rcases List.mem_cons.1 hn with rfl | hmem
    · rw [List.filter_cons, List.filter_cons]
      simp only [hnew, hv]
      simpa using Nat.lt_succ_of_le hle
    · have hlt := ih hmem
      rw [List.filter_cons, List.filter_cons]
      cases hmv : visited trace m.id with
      | true => rw [hsub m hmv]; simpa using hlt
      | false =>
        cases hmv' : visited (trace ++ [entry]) m.id with
        | true => simpa using Nat.lt_succ_of_lt hlt
        | false => simpa using hlt

/--
Walks on from a trace and an agenda. Visits that are found later go first, so the walk is depth
first. `clock` gives the time of an entry by the number of entries before it.
-/
def Graph.walk (g : Graph) (clock : Nat → Int) (trace : List TraceEntry) : Agenda → Walk
  | [] => ⟨trace, none⟩
  | (id, input) :: later =>
    match _hn : g.find? id with
    | none => ⟨trace, some (.dangling id)⟩
    | some n =>
      if _hv : visited trace n.id then ⟨trace, some (.cycle n.id n.label)⟩
      else
        match n.evaluate input with
        | .error cause => ⟨trace, some (.node n.id n.label n.type cause)⟩
        | .ok output =>
          g.walk clock (trace ++ [n.entry input output (clock trace.length)])
            (g.visitsFrom n.id output ++ later)
termination_by (g.unvisited trace).length
decreasing_by
  exact unvisited_length_lt (List.mem_of_find?_eq_some _hn) (by simpa using _hv) rfl

/-- What a run leaves behind: its trace, and its error if it failed. -/
structure Run where
  trace : List TraceEntry
  error? : Option RunError

/-- Runs a workflow from its first start node. -/
def Graph.execute (g : Graph) (clock : Nat → Int) : Run :=
  if g.nodes.isEmpty then ⟨[], some .emptyWorkflow⟩
  else
    match g.start? with
    | none => ⟨[], some .missingStart⟩
    | some start =>
      if !g.hasEnd then ⟨[], some .missingEnd⟩
      else
        let walk := g.walk clock [] [(start.id, .null)]
        ⟨walk.trace, walk.error?.map fun cause => .stopped cause walk.trace.getLast?⟩

end Workflow
