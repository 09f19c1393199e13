import Workflow.Proofs.Graph.Validity
import Workflow.Proofs.Run.Tree

/-!
# Where the entries of a trace come from

A run begins at the first node of its start node's id, and every later entry of its trace got its
input along an edge from an earlier one, whether or not the run fails in the end. That first node is
the start node itself, unless a node before it has the same id.
-/

namespace Workflow

section Walk

variable {g : Graph} {clock : Nat → Int} {root : String}

/-- A walk adds to its trace and takes nothing back. -/
lemma Graph.walk_isPrefix (g : Graph) (clock : Nat → Int) (trace : List TraceEntry)
    (agenda : Agenda) : trace <+: (g.walk clock trace agenda).trace := by
  have hkeep : g.KeptByVisits clock fun trace' _ => trace <+: trace' :=
    fun _ _ _ _ _ _ h _ _ _ => h.trans (List.prefix_append _ _)
  have hstops := Graph.walk_stops hkeep trace agenda (List.prefix_refl trace)
  generalize g.walk clock trace agenda = walk at hstops
  cases hstops with
  | finished h | dangling h | cycle h | failure h => exact h

end Walk

/-! ### The first entry -/

/--
A run begins at a node: its first entry is that of the node for no input, and if it has none, it
failed as that node did.
-/
structure Run.BeginsAt (r : Run) (n : Node) : Prop where
  entry : ∀ entry later, r.trace = entry :: later → n.evaluate .null = .ok entry.output ∧
    entry = n.entry .null entry.output entry.timestamp
  failure : r.trace = [] → ∃ cause, n.evaluate .null = .error cause ∧
    r.error? = some (.stopped (.node n.id n.label n.type cause) none)

section First

variable {g : Graph} {clock : Nat → Int} {start first m n : Node} {r : Run}

/-- The nodes that come before the first start node. -/
def Graph.beforeStart (g : Graph) : List Node :=
  g.nodes.takeWhile fun n => n.type ≠ .start

/-- A run that may begin begins at the first node of its start node's id. -/
lemma Graph.execute_beginsAt (clock : Nat → Int) (hs : g.start? = some start)
    (he : g.hasEnd = true) (hfirst : g.find? start.id = some first) :
    (g.execute clock).BeginsAt first := by
  rw [Graph.execute_of_begins clock hs he]
  cases hout : first.evaluate .null with
  | error cause =>
    rw [Graph.walk_failure hfirst rfl hout]
    exact ⟨nofun, fun _ => ⟨cause, hout, rfl⟩⟩
  | ok output =>
    rw [Graph.walk_visit hfirst rfl hout, List.nil_append, List.append_nil]
    obtain ⟨later, hlater⟩ := g.walk_isPrefix clock
      [first.entry .null output (clock [].length)] (g.visitsFrom first.id output)
    refine ⟨fun entry rest htrace => ?_, fun hnil => ?_⟩
    · obtain ⟨rfl, -⟩ := List.cons.inj (hlater.trans htrace)
      exact ⟨hout, rfl⟩
    · cases hlater.trans hnil

/-- A run does not begin at nodes of different types. -/
lemma Run.BeginsAt.type_eq (hm : r.BeginsAt m) (hn : r.BeginsAt n) : m.type = n.type := by
  cases htrace : r.trace with
  | nil =>
    obtain ⟨_, -, hfails⟩ := hm.failure htrace
    obtain ⟨_, -, hfails'⟩ := hn.failure htrace
    rw [hfails] at hfails'
    obtain ⟨hcause, -⟩ := RunError.stopped.inj (Option.some.inj hfails')
    exact (WalkError.node.inj hcause).2.2.1
  | cons entry later =>
    have hentry := (hm.entry entry later htrace).2.symm.trans (hn.entry entry later htrace).2
    have hname : m.type.name = n.type.name := congrArg TraceEntry.nodeType hentry
    exact Option.some.inj (by rw [← NodeType.ofName?_name, hname, NodeType.ofName?_name])

/-- The first node of the start node's id is the start node itself, or comes before it. -/
lemma Graph.find?_start (hs : g.start? = some start) :
    (g.find? start.id = some start ∧ ∀ n ∈ g.beforeStart, n.id ≠ start.id) ∨
      ∃ first ∈ g.beforeStart, first.id = start.id ∧ first.type ≠ .start ∧
        g.find? start.id = some first := by
  obtain ⟨htype, before, after, hnodes, hbefore⟩ := List.find?_eq_some_iff_append.1 hs
  have hnone : ∀ n ∈ before, n.type ≠ .start := fun n hn => by simpa using hbefore n hn
  have hsplit : g.beforeStart = before := by
    rw [Graph.beforeStart, hnodes, List.takeWhile_append_of_pos (by simpa using hnone),
      List.takeWhile_cons_of_neg (by simpa using htype), List.append_nil]
  rw [hsplit, Graph.find?, hnodes, List.find?_append]
  cases hfind : before.find? fun n => n.id = start.id with
  | none => exact .inl ⟨by simp, fun n hn => by simpa using List.find?_eq_none.1 hfind n hn⟩
  | some first =>
    have hmem := List.mem_of_find?_eq_some hfind
    exact .inr ⟨first, hmem, by simpa using List.find?_some hfind, hnone first hmem, rfl⟩

lemma Node.exists_of_type_start (h : n.type = .start) : ∃ data, n.payload = .start data := by
  rw [Node.type] at h
  cases hpayload : n.payload with
  | start data => exact ⟨data, rfl⟩
  | transform | finish =>
    rw [hpayload] at h
    cases h

end First

/--
A run that may begin begins at the first node of its start node's id. So it begins at its first
start node, whose output for no input is its payload read as JSON, exactly if no node before that
has the same id.
-/
theorem Graph.execute_begins {g : Graph} (hcan : g.canExecute = true) (clock : Nat → Int) :
    ∃ start data, g.start? = some start ∧ start.payload = .start data ∧
      (∀ output, start.evaluate .null = .ok output
        ↔ Json.read .payload data.payload = .ok output) ∧
      ((g.execute clock).BeginsAt start ↔ ∀ n ∈ g.beforeStart, n.id ≠ start.id) ∧
      ∃ first, g.find? start.id = some first ∧ (g.execute clock).BeginsAt first := by
  obtain ⟨⟨start, hs⟩, he⟩ := Graph.canExecute_iff.1 hcan
  obtain ⟨hstart, htype⟩ := Graph.start?_mem hs
  obtain ⟨data, hdata⟩ := Node.exists_of_type_start htype
  refine ⟨start, data, hs, hdata, fun output => ?_, ?_⟩
  · rw [Node.evaluate, hdata]
    exact StartData.evaluate_eq_ok_iff
  · rcases Graph.find?_start hs with ⟨hfind, hbefore⟩ | ⟨first, hmem, hid, hne, hfind⟩
    · have hbegins := Graph.execute_beginsAt clock hs he hfind
      exact ⟨⟨fun _ => hbefore, fun _ => hbegins⟩, start, hfind, hbegins⟩
    · have hbegins := Graph.execute_beginsAt clock hs he hfind
      refine ⟨⟨fun h => ?_, fun hbefore => absurd hid (hbefore first hmem)⟩, first, hfind, hbegins⟩
      exact absurd ((hbegins.type_eq h).trans htype) hne

/-- A start node behind an end node of the same id. -/
def Graph.overshadowed : Graph where
  nodes := [⟨"a", ⟨0, 0⟩, .standard .finish⟩,
    ⟨"a", ⟨0, 0⟩, .start { label := "Start", payload := "1" }⟩]

/-- The run begins at the end node, and not at the only start node. -/
theorem Graph.execute_begins_overshadowed : Graph.overshadowed.canExecute = true ∧
    ¬(Graph.overshadowed.execute fun _ => 0).BeginsAt
        ⟨"a", ⟨0, 0⟩, .start { label := "Start", payload := "1" }⟩ ∧
      (Graph.overshadowed.execute fun _ => 0).BeginsAt ⟨"a", ⟨0, 0⟩, .standard .finish⟩ := by
  obtain ⟨start, data, hs, -, -, hiff, first, hfirst, hbegins⟩ :=
    Graph.execute_begins (g := Graph.overshadowed) rfl fun _ => 0
  obtain rfl := Option.some.inj hs
  obtain rfl := Option.some.inj hfirst
  refine ⟨rfl, fun h => ?_, hbegins⟩
  have hbefore : ⟨"a", ⟨0, 0⟩, .standard .finish⟩ ∈ Graph.overshadowed.beforeStart :=
    List.mem_cons_self
  exact hiff.1 h _ hbefore rfl

/-! ### All entries -/

/--
A trace is faithful to a graph: no id has two entries, the first one is that of the start node for
no input, and every later one got for its input the output of an entry before it, along an edge
between their nodes. And every entry is that of a node, with the output that the node has for its
input.
-/
structure Graph.IsFaithful (g : Graph) (trace : List TraceEntry) : Prop where
  nodup : (idsOf trace).Nodup
  first : ∀ entry later, trace = entry :: later →
    ∃ start, g.start? = some start ∧ entry = start.entry .null entry.output entry.timestamp
  fed : ∀ earlier entry later, earlier ≠ [] → trace = earlier ++ entry :: later →
    ∃ before ∈ earlier, ∃ e ∈ g.edges,
      e.source = before.nodeId ∧ e.target = entry.nodeId ∧ entry.input = before.output
  recorded : ∀ entry ∈ trace, ∃ n ∈ g.nodes, n.evaluate entry.input = .ok entry.output ∧
    entry = n.entry entry.input entry.output entry.timestamp

section All

variable {g : Graph} {start : Node} {root : String} {entry : TraceEntry}
  {earlier later trace : List TraceEntry} {agenda : Agenda}

/-- A walk visits its root first, with no input. -/
lemma Graph.Visiting.eq_root_of_cons (h : g.Visiting root (entry :: later) agenda) :
    entry.nodeId = root ∧ entry.input = .null := by
  rcases h.fed [] entry later rfl with hfirst | ⟨before, hbefore, -⟩
  · exact hfirst
  · cases hbefore

/-- Whatever a walk visits later is not its root, and so an edge has led to it. -/
lemma Graph.Visiting.fed_of_ne_nil (h : g.Visiting root trace agenda) (hne : earlier ≠ [])
    (htrace : trace = earlier ++ entry :: later) :
    ∃ before ∈ earlier, ∃ e ∈ g.edges,
      e.source = before.nodeId ∧ e.target = entry.nodeId ∧ entry.input = before.output := by
  rcases h.fed earlier entry later htrace with ⟨hid, -⟩ | hfed
  · obtain ⟨first, rest, rfl⟩ := List.exists_cons_of_ne_nil hne
    subst htrace
    have hroot : first.nodeId = root := h.eq_root_of_cons.1
    have hnodup : (first.nodeId :: idsOf (rest ++ entry :: later)).Nodup := h.nodup
    refine absurd ?_ (List.nodup_cons.1 hnodup).1
    rw [hroot, ← hid]
    exact mem_idsOf_of_mem (List.mem_append_right _ List.mem_cons_self)
  · exact hfed

/-- Wherever a walk from the start node stops, its trace is faithful. -/
lemma Graph.Visiting.isFaithful (h : g.Visiting start.id trace agenda)
    (hids : (g.nodes.map Node.id).Nodup) (hs : g.start? = some start) : g.IsFaithful trace where
  nodup := h.nodup
  first entry later htrace := by
    subst htrace
    obtain ⟨hid, hinput⟩ := h.eq_root_of_cons
    obtain ⟨n, hn, -, hentry⟩ := (h.recorded entry List.mem_cons_self).exists_find?
    rw [hid, Graph.find?_of_mem hids (Graph.start?_mem hs).1] at hn
    obtain rfl := Option.some.inj hn
    exact ⟨start, hs, hinput ▸ hentry⟩
  fed earlier entry later hne htrace := h.fed_of_ne_nil hne htrace
  recorded entry hentry := by
    obtain ⟨n, hn, hout⟩ := (h.recorded entry hentry).exists_find?
    exact ⟨n, Graph.mem_of_find? hn, hout⟩

lemma Graph.isFaithful_nil (g : Graph) : g.IsFaithful [] :=
  ⟨List.nodup_nil, nofun, by simp, nofun⟩

end All

/--
If the ids of a graph are distinct, every run of it leaves a faithful trace, whether or not it
succeeds. If it does, each edge that leaves a node of the trace has also brought the output of that
node to another one.
-/
theorem Graph.execute_isFaithful {g : Graph} (hids : (g.nodes.map Node.id).Nodup)
    (clock : Nat → Int) :
    g.IsFaithful (g.execute clock).trace ∧
      ((g.execute clock).error? = none → ∀ entry ∈ (g.execute clock).trace, ∀ e ∈ g.edges,
        e.source = entry.nodeId → ∃ other ∈ (g.execute clock).trace,
          other.nodeId = e.target ∧ other.input = entry.output) := by
  cases hcan : g.canExecute with
  | false =>
    obtain ⟨e, hrun, -⟩ := Graph.execute_of_not_canExecute clock hcan
    rw [hrun]
    exact ⟨g.isFaithful_nil, nofun⟩
  | true =>
    obtain ⟨⟨start, hs⟩, hend⟩ := Graph.canExecute_iff.1 hcan
    rw [Graph.execute_of_begins clock hs hend]
    have hstops := g.walk_visiting clock start.id
    generalize g.walk clock [] [(start.id, .null)] = walk at hstops
    cases hstops with
    | finished h =>
      exact ⟨h.isFaithful hids hs, fun _ entry hentry e he hsource =>
        h.exists_fed hentry he hsource⟩
    | dangling h | cycle h | failure h => exact ⟨h.isFaithful hids hs, nofun⟩

/-- A start node whose edges lead to a transform node and past it to an end node. -/
def Graph.branching : Graph where
  nodes := [⟨"a", ⟨0, 0⟩, .start { label := "Start", payload := "1" }⟩,
    ⟨"b", ⟨0, 0⟩, .standard .transform⟩, ⟨"c", ⟨0, 0⟩, .standard .finish⟩]
  edges := [.between "a" "b", .between "a" "c"]

/-- The transform node stands between them in the trace, but it is the start node that fed "c". -/
theorem Graph.execute_isFaithful_branching :
    (Graph.branching.nodes.map Node.id).Nodup ∧
      Graph.branching.IsFaithful (Graph.branching.execute fun _ => 0).trace ∧
      idsOf (Graph.branching.execute fun _ => 0).trace = ["a", "b", "c"] ∧
      ∃ other ∈ (Graph.branching.execute fun _ => 0).trace,
        other.nodeId = "c" ∧ other.input = .int 1 := by
  let a : Node := ⟨"a", ⟨0, 0⟩, .start { label := "Start", payload := "1" }⟩
  let b : Node := ⟨"b", ⟨0, 0⟩, .standard .transform⟩
  let c : Node := ⟨"c", ⟨0, 0⟩, .standard .finish⟩
  have ha : a.evaluate .null = .ok (.int 1) := rfl
  have hb : b.evaluate (.int 1) = .ok (.int 1) := rfl
  have hc : c.evaluate (.int 1) = .ok (.int 1) := rfl
  have hwalk : Graph.branching.walk (fun _ => 0) [] [("a", .null)]
      = ⟨[a.entry .null (.int 1) 0, b.entry (.int 1) (.int 1) 0, c.entry (.int 1) (.int 1) 0],
          none⟩ := by
    rw [Graph.walk_visit rfl rfl ha,
      show Graph.branching.visitsFrom "a" (.int 1) ++ [] = [("b", .int 1), ("c", .int 1)] from rfl,
      Graph.walk_visit rfl rfl hb,
      show Graph.branching.visitsFrom "b" (.int 1) ++ _ = [("c", .int 1)] from rfl,
      Graph.walk_visit rfl rfl hc,
      show Graph.branching.visitsFrom "c" (.int 1) ++ [] = [] from rfl, Graph.walk_nil]
    rfl
  have hrun : Graph.branching.execute (fun _ => 0)
      = ⟨[a.entry .null (.int 1) 0, b.entry (.int 1) (.int 1) 0, c.entry (.int 1) (.int 1) 0],
          none⟩ := by
    rw [Graph.execute_of_begins _ rfl rfl]
    exact congrArg (fun w : Walk => (⟨w.trace, w.error?.map fun cause =>
      .stopped cause w.trace.getLast?⟩ : Run)) hwalk
  have hids : (Graph.branching.nodes.map Node.id).Nodup := by decide
  obtain ⟨hfaithful, hfeeds⟩ := Graph.execute_isFaithful hids fun _ => 0
  refine ⟨hids, hfaithful, by rw [hrun]; rfl, ?_⟩
  exact hfeeds (by rw [hrun]) (a.entry .null (.int 1) 0) (by rw [hrun]; exact List.mem_cons_self)
    (.between "a" "c") (List.mem_cons_of_mem _ List.mem_cons_self) rfl

end Workflow
