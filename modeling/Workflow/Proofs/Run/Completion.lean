import Workflow.Proofs.Graph.Validity
import Workflow.Proofs.Run.Tree

/-!
# Runs that reach every node

A graph without problems runs completely, unless one of its nodes fails: every node is visited once,
after its only predecessor and with what that has put out.
-/

namespace Workflow

/--
A trace covers a tree: it has one entry for each node and no other, with the output that the node
has for its input. The start node gets nothing, and every other node, by the only edge that leads to
it, the output of an entry before its own.
-/
structure Graph.Covers (g : Graph) (trace : List TraceEntry) : Prop where
  count_eq_one : ∀ n ∈ g.nodes, (idsOf trace).count n.id = 1
  recorded : ∀ entry ∈ trace, ∃ n ∈ g.nodes,
    n.id = entry.nodeId ∧ n.evaluate entry.input = .ok entry.output
  fed : ∀ earlier entry later, trace = earlier ++ entry :: later →
    (∃ start, g.start? = some start ∧ entry.nodeId = start.id ∧ entry.input = .null) ∨
      ∃ before ∈ earlier, ∃ e, g.edges.filter (fun e => e.target = entry.nodeId) = [e] ∧
        e.source = before.nodeId ∧ entry.input = before.output

section Completion

variable {g : Graph} {start : Node} {trace : List TraceEntry}

/-- In a tree that can be run, an edge to a node is the only one. -/
lemma Graph.IsRunnableTree.filter_target_eq (h : g.IsRunnableTree) {e : Edge} (he : e ∈ g.edges) :
    g.edges.filter (fun e' => e'.target = e.target) = [e] := by
  obtain ⟨n, hn, hid⟩ := h.target_known e he
  have hone := h.inputs n hn
  rw [if_neg (h.keepsRules.target_type e he n hn hid), hid, List.countP_eq_length_filter,
    List.length_eq_one_iff] at hone
  obtain ⟨only, honly⟩ := hone
  have hmem : e ∈ g.edges.filter fun e' => e'.target = e.target := by simp [he]
  rw [honly, List.mem_singleton] at hmem
  rw [honly, hmem]

/-- A walk that has visited all that the start node reaches has covered the tree. -/
lemma Graph.Visiting.covers (h : g.Visiting start.id trace []) (htree : g.IsRunnableTree)
    (hs : g.start? = some start) : g.Covers trace where
  count_eq_one n hn := by
    obtain ⟨hstart, htype⟩ := Graph.start?_mem hs
    exact List.count_eq_one_of_mem h.nodup
      (h.mem_iff_reaches.2 (htree.reached start hstart htype n hn))
  recorded entry hentry := by
    obtain ⟨n, hn, houtput, -⟩ := (h.recorded entry hentry).exists_find?
    exact ⟨n, Graph.mem_of_find? hn, Graph.id_of_find? hn, houtput⟩
  fed earlier entry later hsplit := by
    rcases h.fed earlier entry later hsplit with ⟨hid, hin⟩ | ⟨before, hbefore, e, he, hs', ht, hin⟩
    · exact .inl ⟨start, hs, hid, hin⟩
    · exact .inr ⟨before, hbefore, e, ht ▸ htree.filter_target_eq he, hs', hin⟩

/-- By the rules a walk from a start node stops only at its end, or at a node that fails. -/
lemma Graph.KeepsRules.walk_finished_or_failure (h : g.KeepsRules) (clock : Nat → Int)
    (hs : g.start? = some start) :
    (∃ trace, g.Visiting start.id trace [] ∧ g.walk clock [] [(start.id, .null)] = ⟨trace, none⟩) ∨
      ∃ trace, ∃ n ∈ g.nodes, ∃ input cause, n.evaluate input = .error cause ∧
        g.walk clock [] [(start.id, .null)]
          = ⟨trace, some (.node n.id n.label n.type cause)⟩ := by
  obtain ⟨hstart, htype⟩ := Graph.start?_mem hs
  have hstops := g.walk_visiting clock start.id
  rcases hstops.finished_or_failure (h.isTree hstart htype) ⟨start, hstart, rfl⟩ with
    hfinished | ⟨trace, _, input, _, n, cause, -, hn, hfails, hwalk⟩
  · exact .inl hfinished
  · exact .inr ⟨trace, n, Graph.mem_of_find? hn, input, cause, hfails, hwalk⟩

end Completion

/--
A graph without problems runs completely, and the trace of the run covers it, unless one of its
nodes fails. It fails for no other reason.
-/
theorem Graph.execute_covers_or_node_fails {g : Graph} (h : g.problems = []) (clock : Nat → Int) :
    (∃ trace, g.execute clock = ⟨trace, none⟩ ∧ g.Covers trace) ∨
      ∃ trace, ∃ n ∈ g.nodes, ∃ input cause, n.evaluate input = .error cause ∧ g.execute clock
        = ⟨trace, some (.stopped (.node n.id n.label n.type cause) trace.getLast?)⟩ := by
  have htree := Graph.isRunnableTree_of_problems_eq_nil h
  obtain ⟨start, hs⟩ := Graph.exists_start? htree.exists_start
  rw [Graph.execute_of_begins clock hs (Graph.hasEnd_iff.2 htree.some_end)]
  rcases htree.keepsRules.walk_finished_or_failure clock hs with
    ⟨trace, hvisiting, hwalk⟩ | ⟨trace, n, hn, input, cause, hfails, hwalk⟩
  · rw [hwalk]
    exact .inl ⟨trace, rfl, hvisiting.covers htree hs⟩
  · rw [hwalk]
    exact .inr ⟨trace, n, hn, input, cause, hfails, rfl⟩

/-- A start node that leads to a transform node and to an end node. -/
def Graph.fork : Graph where
  nodes := [⟨"a", ⟨0, 0⟩, .standard .start⟩, ⟨"b", ⟨0, 0⟩, .standard .transform⟩,
    ⟨"c", ⟨0, 0⟩, .standard .finish⟩]
  edges := [.between "a" "b", .between "a" "c"]

lemma Graph.isRunnableTree_fork : Graph.fork.IsRunnableTree := by
  have hreached : ∀ e ∈ Graph.fork.edges, Graph.fork.Reaches "a" e.target := by
    intro e he
    have hsource : "a" = e.source := (by decide : ∀ e ∈ Graph.fork.edges, "a" = e.source) e he
    exact Graph.Reaches.target (hsource ▸ .refl _) he
  have hids : ∀ n ∈ Graph.fork.nodes, n.id = "a" ∨ n.id ∈ Graph.fork.edges.map Edge.target := by
    decide
  refine ⟨by decide, by decide, ⟨⟨"c", ⟨0, 0⟩, .standard .finish⟩, by simp [Graph.fork], rfl⟩,
    by simp [Graph.fork, Edge.between], by simp [Graph.fork, Edge.between], by decide, by decide,
    fun start hstart htype n hn => ?_⟩
  have hroot : start.id = "a" :=
    (by decide : ∀ n ∈ Graph.fork.nodes, n.type = .start → n.id = "a") start hstart htype
  rw [hroot]
  rcases hids n hn with hid | hid
  · exact hid ▸ .refl _
  · obtain ⟨e, he, htarget⟩ := List.mem_map.1 hid
    exact htarget ▸ hreached e he

/-- The fork has no problem, and so it runs completely or fails in a node. -/
theorem Graph.execute_covers_or_node_fails_fork :
    Graph.fork.problems = [] ∧
      ((∃ trace, Graph.fork.execute (fun _ => 0) = ⟨trace, none⟩ ∧ Graph.fork.Covers trace) ∨
        ∃ trace, ∃ n ∈ Graph.fork.nodes, ∃ input cause, n.evaluate input = .error cause ∧
          Graph.fork.execute (fun _ => 0)
            = ⟨trace, some (.stopped (.node n.id n.label n.type cause) trace.getLast?)⟩) := by
  have hnone := Graph.isRunnableTree_fork.problems_eq_nil
  exact ⟨hnone, Graph.execute_covers_or_node_fails hnone _⟩

end Workflow
