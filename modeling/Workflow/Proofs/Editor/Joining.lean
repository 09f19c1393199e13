import Workflow.Proofs.Editor.Building
import Workflow.Proofs.Graph.Admission

/-!
# Joining nodes and parting them again

An edge that is asked for is added exactly if that brings no new problem of edges, whatever else is
wrong with the graph. It can be taken back by its id as long as no other edge bears that id. An id
tells both ends of its edge where the ids of nodes are those that editors give out, but an id that
was brought in from elsewhere may hold the hyphen that joins the two ends.
-/

namespace Workflow

/-! ### Edges that are asked for -/

namespace Editor

variable {e : Editor} {source target : String}

lemma addEdge_of_admits (h : e.state.graph.admits source target = true) :
    e.addEdge source target
      = ({ e with
          state := { e.state with
            graph := e.state.graph.addEdge (.between source target) } }.announce .edges).answering
        (some (.between source target)) :=
  if_pos h

lemma addEdge_of_not_admits (h : ¬e.state.graph.admits source target = true) :
    e.addEdge source target = e.done none :=
  if_neg h

/-- An editor refuses to join two nodes exactly if its graph does not admit the edge. -/
lemma addEdge_answer_eq_none_iff :
    (e.addEdge source target).answer = .ok none ↔ ¬e.state.graph.admits source target = true := by
  by_cases h : e.state.graph.admits source target = true
  · rw [addEdge_of_admits h, Outcome.answering_answer_ok]
    simp [h]
  · rw [addEdge_of_not_admits h]
    simp [h, done]

lemma addEdge_state (h : (e.addEdge source target).answer ≠ .ok none) :
    (e.addEdge source target).editor.state
      = { e.state with graph := e.state.graph.addEdge (.between source target) } := by
  rw [ne_eq, addEdge_answer_eq_none_iff, not_not] at h
  rw [addEdge_of_admits h, Outcome.answering_editor]
  exact congrArg Editor.state (still_announce _ .edges)

/-- An edge that is answered is the one between the two ids, and there was none to its target. -/
lemma of_addEdge_answer {edge : Edge} (h : (e.addEdge source target).answer = .ok (some edge)) :
    edge = .between source target ∧ e.state.graph.admits source target = true := by
  by_cases hadmits : e.state.graph.admits source target = true
  · rw [addEdge_of_admits hadmits, Outcome.answering_answer_ok] at h
    exact ⟨(Option.some.inj h.1).symm, hadmits⟩
  · rw [addEdge_of_not_admits hadmits] at h
    cases h

/--
An edge is refused exactly if, added to the graph, it would bring a sentence for a problem of edges
more often than it is said already; then nothing changes, and nothing is announced. Otherwise it is
added, and the problems of edges are those that there were.
-/
theorem addEdge_refuses_iff (e : Editor) (source target : String) :
    ((e.addEdge source target).answer = .ok none ↔
      ∃ p : Problem, p.isOfEdge = true ∧ e.state.graph.lines.count p.message
        < (e.state.graph.addEdge (.between source target)).lines.count p.message) ∧
    ((e.addEdge source target).answer = .ok none → e.addEdge source target = e.done none) ∧
    (∀ edge, (e.addEdge source target).answer = .ok (some edge) → edge = .between source target) ∧
    ((e.addEdge source target).answer ≠ .ok none →
      (e.addEdge source target).editor.state.graph
        = e.state.graph.addEdge (.between source target) ∧
      (e.addEdge source target).editor.state.graph.problems.filter Problem.isOfEdge
        = e.state.graph.problems.filter Problem.isOfEdge ∧
      ∀ p : Problem, p.isOfEdge = true →
        (e.addEdge source target).editor.state.graph.lines.count p.message
          = e.state.graph.lines.count p.message) := by
  refine ⟨?_, fun h => ?_, fun edge h => (of_addEdge_answer h).1, fun h => ?_⟩
  · rw [addEdge_answer_eq_none_iff]
    exact @Graph.not_admits_iff e.state.graph (.between source target)
  · exact addEdge_of_not_admits (addEdge_answer_eq_none_iff.1 h)
  · have hgraph : (e.addEdge source target).editor.state.graph
        = e.state.graph.addEdge (.between source target) :=
      congrArg EditorState.graph (addEdge_state h)
    have hsame := @Graph.filter_isOfEdge_addEdge e.state.graph (.between source target) <| by
      rwa [ne_eq, addEdge_answer_eq_none_iff, not_not] at h
    rw [hgraph]
    refine ⟨rfl, hsame, fun p hp => ?_⟩
    rw [Graph.count_lines hp, Graph.count_lines hp, hsame]

end Editor

/-! ### Ids that editors give out -/

/-- A graph whose ids are such as editors give them out to nodes and to the edges between them. -/
structure Graph.HasGivenIds (g : Graph) : Prop where
  nodes : ∀ n ∈ g.nodes, IsGiven n.id
  edges : ∀ e ∈ g.edges, IsGiven e.source ∧ e = .between e.source e.target

namespace Graph.HasGivenIds

variable {g : Graph}

lemma empty : ({} : Graph).HasGivenIds :=
  ⟨nofun, nofun⟩

lemma addNode (h : g.HasGivenIds) {n : Node} (hgiven : IsGiven n.id) :
    (g.addNode n).HasGivenIds where
  nodes m hm := by
    rcases List.mem_append.1 hm with hm | hm
    · exact h.nodes m hm
    · rwa [List.mem_singleton.1 hm]
  edges := h.edges

lemma changeNode (h : g.HasGivenIds) {id : String} {change : Node → Node}
    (hchange : ∀ n, (change n).id = n.id) : (g.changeNode id change).HasGivenIds where
  nodes m hm := by
    have hids := @ids_changeNode g id change fun n _ => hchange n
    obtain ⟨n, hn, hid⟩ := List.mem_map.1 (hids ▸ List.mem_map_of_mem hm)
    exact hid ▸ h.nodes n hn
  edges := h.edges

lemma deleteNode (h : g.HasGivenIds) (id : String) : (g.deleteNode id).HasGivenIds where
  nodes n hn := h.nodes n (List.mem_of_mem_filter hn)
  edges e he := h.edges e (List.mem_of_mem_filter he)

lemma addEdge (h : g.HasGivenIds) {source target : String}
    (hadmits : g.admits source target = true) :
    (g.addEdge (.between source target)).HasGivenIds where
  nodes := h.nodes
  edges e he := by
    rcases List.mem_append.1 he with he | he
    · exact h.edges e he
    · obtain ⟨s, t, hs, -⟩ := admits_iff.1 hadmits
      rw [List.mem_singleton.1 he]
      exact ⟨id_of_find? hs ▸ h.nodes s (mem_of_find? hs), rfl⟩

lemma removeEdge (h : g.HasGivenIds) (id : String) : (g.removeEdge id).HasGivenIds where
  nodes := h.nodes
  edges e he := h.edges e (List.mem_of_mem_filter he)

/-- The id of an edge from a node whose id was given out is borne by no edge with other ends. -/
lemma eq_between (h : g.HasGivenIds) {source target : String} (hsource : IsGiven source)
    {edge : Edge} (hedge : edge ∈ g.edges) (hid : edge.id = Edge.makeId source target) :
    edge = .between source target := by
  obtain ⟨hgiven, hbetween⟩ := h.edges edge hedge
  rw [hbetween] at hid ⊢
  obtain ⟨hsame, htarget⟩ := makeId_inj hgiven hsource hid
  rw [hsame, htarget]

/-- An edge that is admitted gets an id that no edge bears yet. -/
lemma id_ne_of_admits (h : g.HasGivenIds) {source target : String}
    (hadmits : g.admits source target = true) :
    ∀ edge ∈ g.edges, edge.id ≠ Edge.makeId source target := by
  obtain ⟨s, t, hs, -, -, -, hfree⟩ := admits_iff.1 hadmits
  have hsource : IsGiven source := id_of_find? hs ▸ h.nodes s (mem_of_find? hs)
  intro edge hedge hid
  exact hfree edge hedge (congrArg Edge.target (h.eq_between hsource hedge hid))

end Graph.HasGivenIds

namespace Editor

variable {e : Editor} {source target : String}

/-- Whether a graph that an operation brings in, if it does, has ids that editors gave out. -/
def Operation.BringsGivenIds (e : Editor) : Operation → Prop
  | .replaceState s => s.graph.HasGivenIds
  | .importWorkflow d => ∀ w, Export.read e.time d = .ok w → w.graph.HasGivenIds
  | .importExport w => w.graph.HasGivenIds
  | .load => ∀ w, e.stored = .ok (some w) → w.graph.HasGivenIds
  | _ => True

lemma Operation.Builds.bringsGivenIds {op : Operation} (h : op.Builds e) :
    op.BringsGivenIds e := by
  cases op with
  | replaceState | importWorkflow | importExport | load => exact h.elim
  | _ => trivial

lemma hasGivenIds_step (h : e.state.graph.HasGivenIds) {op : Operation}
    (hop : op.BringsGivenIds e) {state : EditorState} {misfits : Misfits}
    (hstep : e.Step op state misfits) : state.graph.HasGivenIds := by
  cases hstep with
  | addNode _ ht hn => exact h.addNode ((of_newNode_eq_ok hn).1 ▸ isGiven_nextId e _)
  | updateNode | moveNode => exact h.changeNode fun _ => rfl
  | deleteNode id => exact h.deleteNode id
  | addEdge hadmits => exact h.addEdge hadmits
  | removeEdge id => exact h.removeEdge id
  | deselect | deleteNothing | removeNothing | select | selectMisfit | setExecuting | setMisfit =>
    exact h
  | replaceState | importExport => exact hop
  | importWorkflow hw => exact hop _ hw
  | clear => exact .empty

/-- Where only ids that editors gave out are brought in, there are no others. -/
lemma ReachableBy.hasGivenIds (h : e.ReachableBy fun x op => op.BringsGivenIds x) :
    e.state.graph.HasGivenIds := by
  have hsteady : Steady (fun _ => True) fun s => s.graph.HasGivenIds :=
    ⟨trivial, fun _ _ => trivial, fun _ _ hs => hs,
      fun _ _ _ hx hs => (snapshot_eq_ok hs).1 ▸ hx⟩
  have hholds : e.Holds (fun _ => True) fun s => s.graph.HasGivenIds :=
    h.holds hsteady .empty
      (fun _ _ _ _ hop hx hstep => ⟨trivial, hasGivenIds_step hx.state hop hstep⟩)
      fun _ _ hop => hop _
  exact hholds.state

/-! ### Edges that are taken back -/

lemma removeEdge_state (e : Editor) (id : String) : (e.removeEdge id).editor.state
    = { e.state with graph := e.state.graph.removeEdge id } :=
  congrArg Editor.state (still_announce _ .edges)

lemma removeEdge_addEdge_edges (g : Graph) (edge : Edge) :
    ((g.addEdge edge).removeEdge edge.id).edges
      = g.edges.filter fun other => other.id ≠ edge.id := by
  simp [Graph.removeEdge, Graph.addEdge]

/-- An edge that was added and then removed leaves no trace if no other edge bears its id. -/
lemma removeEdge_addEdge_eq_iff (g : Graph) (edge : Edge) :
    (g.addEdge edge).removeEdge edge.id = g ↔ ∀ other ∈ g.edges, other.id ≠ edge.id := by
  have hext : (g.addEdge edge).removeEdge edge.id = g ↔
      ((g.addEdge edge).removeEdge edge.id).edges = g.edges := by
    refine ⟨fun h => congrArg Graph.edges h, fun h => ?_⟩
    cases g
    exact congrArg (Graph.mk _) h
  rw [hext, removeEdge_addEdge_edges, List.filter_eq_self]
  simp only [decide_eq_true_eq]

/--
An edge that was added is one edge more at the end, and removing its id removes every edge that
bears the id. So the former state is restored exactly if no edge bore the id before. In a session
into which only ids were brought that editors gave out, that is always so, and at no time does the
removal of the edge's id remove any other edge than one with the same ends.
-/
theorem removeEdge_addEdge {edge : Edge}
    (h : (e.addEdge source target).answer = .ok (some edge)) :
    edge = .between source target ∧
    (e.addEdge source target).editor.state.graph.edges = e.state.graph.edges ++ [edge] ∧
    ((e.addEdge source target).editor.removeEdge edge.id).editor.state.graph.edges
      = e.state.graph.edges.filter (fun other => other.id ≠ edge.id) ∧
    (((e.addEdge source target).editor.removeEdge edge.id).editor.state = e.state ↔
      ∀ other ∈ e.state.graph.edges, other.id ≠ edge.id) ∧
    ((e.ReachableBy fun x op => op.BringsGivenIds x) →
      ((e.addEdge source target).editor.removeEdge edge.id).editor.state = e.state ∧
      ∀ x : Editor, (x.ReachableBy fun x op => op.BringsGivenIds x) →
        ∀ other ∈ x.state.graph.edges,
          other ∉ (x.removeEdge edge.id).editor.state.graph.edges → other = edge) := by
  obtain ⟨rfl, hadmits⟩ := of_addEdge_answer h
  set edge := Edge.between source target
  have hadded : (e.addEdge source target).editor.state
      = { e.state with graph := e.state.graph.addEdge edge } :=
    addEdge_state (by rw [h]; exact fun heq => nomatch heq)
  have hremoved : ((e.addEdge source target).editor.removeEdge edge.id).editor.state
      = { e.state with graph := (e.state.graph.addEdge edge).removeEdge edge.id } := by
    rw [removeEdge_state, hadded]
  have hrestored : ((e.addEdge source target).editor.removeEdge edge.id).editor.state = e.state ↔
      ∀ other ∈ e.state.graph.edges, other.id ≠ edge.id := by
    rw [hremoved, ← removeEdge_addEdge_eq_iff]
    refine ⟨fun heq => congrArg EditorState.graph heq, fun heq => ?_⟩
    rw [heq]
  refine ⟨rfl, congrArg (fun s => s.graph.edges) hadded, ?_, hrestored, fun hgiven => ?_⟩
  · rw [hremoved]
    exact removeEdge_addEdge_edges _ edge
  · refine ⟨hrestored.2 (hgiven.hasGivenIds.id_ne_of_admits hadmits), fun x hx other hother => ?_⟩
    rw [removeEdge_state]
    intro hlost
    have hid : other.id = edge.id := by
      by_contra hne
      exact hlost (List.mem_filter.2 ⟨hother, by simpa using hne⟩)
    obtain ⟨s, t, hs, -⟩ := Graph.admits_iff.1 hadmits
    have hsource : IsGiven source :=
      Graph.id_of_find? hs ▸ hgiven.hasGivenIds.nodes s (Graph.mem_of_find? hs)
    exact hx.hasGivenIds.eq_between hsource hother hid

/-- A start node that was joined to an end node can be parted from it again. -/
theorem removeEdge_addEdge_unjoined :
    (unjoined.addEdge "start-0-000000001" "end-0-000000002").answer
      = .ok (some (.between "start-0-000000001" "end-0-000000002")) ∧
    ((unjoined.addEdge "start-0-000000001" "end-0-000000002").editor.removeEdge
      "estart-0-000000001-end-0-000000002").editor.state = unjoined.state := by
  have hanswer : (unjoined.addEdge "start-0-000000001" "end-0-000000002").answer
      = .ok (some (.between "start-0-000000001" "end-0-000000002")) := by
    rfl
  have hreachable : unjoined.ReachableBy fun x op => op.BringsGivenIds x :=
    reachableBy_unjoined.mono fun _ _ hop => hop.1.bringsGivenIds
  exact ⟨hanswer, ((removeEdge_addEdge hanswer).2.2.2.2 hreachable).1⟩

/-- Two edges with no end in common get the same id if the ids of their ends hold hyphens. -/
example : (Edge.between "a-b" "c").id = (Edge.between "a" "b-c").id := by
  decide

end Editor

end Workflow
