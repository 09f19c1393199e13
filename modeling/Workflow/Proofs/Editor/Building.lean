import Workflow.Proofs.Editor.Holding
import Workflow.Proofs.Editor.Id
import Workflow.Proofs.Graph.Rules

/-!
# Graphs built in an editor

A session in which a graph is edited piece by piece, rather than replaced as a whole, and in which
every new node gets an id of its own. Whatever else is done in it, the editor holds only graphs that
keep the rules, in the present as in its history.
-/

namespace Workflow

/-! ### Graphs -/

/-- A graph as an editor builds it: by the rules, and with ids as the editor makes them. -/
structure Graph.IsBuilt (g : Graph) : Prop extends g.KeepsRules where
  given : ∀ n ∈ g.nodes, IsGiven n.id
  between : ∀ e ∈ g.edges, e = .between e.source e.target

/-- Whether an operation edits the graph piece by piece, with an id of its own for a new node. -/
def Editor.Operation.Builds (e : Editor) : Operation → Prop
  | .addNode type _ _ =>
    ∀ t, NodeType.ofDocument? type = some t → ∀ n ∈ e.state.graph.nodes, n.id ≠ e.nextId t
  | .replaceState _ | .importWorkflow _ | .importExport _ | .load => False
  | _ => True

lemma Graph.ids_changeNode {g : Graph} {id : String} {change : Node → Node}
    (hchange : ∀ n, g.find? id = some n → (change n).id = n.id) :
    (g.changeNode id change).nodes.map Node.id = g.nodes.map Node.id :=
  map_changeFirst _ hchange

namespace Graph.IsBuilt

variable {g : Graph}

/-- No two edges have the same id, as the id tells both ends. -/
lemma edgeIds_nodup (h : g.IsBuilt) : (g.edges.map Edge.id).Nodup := by
  have hgiven : ∀ e ∈ g.edges, IsGiven e.source := by
    intro e he
    obtain ⟨n, hn, hid⟩ := h.source_known e he
    exact hid ▸ h.given n hn
  refine List.Nodup.map_on (fun e he e' he' hid => ?_) (.of_map _ h.targets_nodup)
  rw [h.between e he, h.between e' he'] at hid ⊢
  obtain ⟨hsource, htarget⟩ := makeId_inj (hgiven e he) (hgiven e' he') hid
  rw [hsource, htarget]

lemma empty : ({} : Graph).IsBuilt :=
  ⟨keepsRules_empty, nofun, nofun⟩

lemma addNode (h : g.IsBuilt) {n : Node} (hnew : ∀ m ∈ g.nodes, m.id ≠ n.id)
    (hgiven : IsGiven n.id) : (g.addNode n).IsBuilt where
  toKeepsRules := h.toKeepsRules.addNode hnew
  given m hm := by
    rcases List.mem_append.1 hm with hm | hm
    · exact h.given m hm
    · rwa [List.mem_singleton.1 hm]
  between := h.between

lemma changeNode (h : g.IsBuilt) {id : String} {change : Node → Node}
    (hchange : ∀ n, g.find? id = some n → (change n).id = n.id ∧ (change n).type = n.type) :
    (g.changeNode id change).IsBuilt where
  toKeepsRules := h.toKeepsRules.changeNode hchange
  given m hm := by
    have hids := g.ids_changeNode fun n hn => (hchange n hn).1
    obtain ⟨n, hn, hid⟩ := List.mem_map.1 (hids ▸ List.mem_map_of_mem hm)
    exact hid ▸ h.given n hn
  between := h.between

lemma deleteNode (h : g.IsBuilt) (id : String) : (g.deleteNode id).IsBuilt where
  toKeepsRules := h.toKeepsRules.deleteNode id
  given n hn := h.given n (List.mem_of_mem_filter hn)
  between e he := h.between e (List.mem_of_mem_filter he)

lemma addEdge (h : g.IsBuilt) {source target : String} (hadmits : g.admits source target = true) :
    (g.addEdge (.between source target)).IsBuilt where
  toKeepsRules := h.toKeepsRules.addEdge hadmits
  given := h.given
  between e he := by
    rcases List.mem_append.1 he with he | he
    · exact h.between e he
    · rw [List.mem_singleton.1 he]
      rfl

lemma removeEdge (h : g.IsBuilt) (id : String) : (g.removeEdge id).IsBuilt where
  toKeepsRules := h.toKeepsRules.removeEdge id
  given := h.given
  between e he := h.between e (List.mem_of_mem_filter he)

/-- Every step that builds on a built graph leaves one. -/
lemma step {e : Editor} (h : e.state.graph.IsBuilt) {op : Editor.Operation} (hop : op.Builds e)
    {state : EditorState} {misfits : Misfits} (hstep : e.Step op state misfits) :
    state.graph.IsBuilt := by
  cases hstep with
  | addNode _ ht hn =>
    obtain ⟨hid, -⟩ := Editor.of_newNode_eq_ok hn
    exact h.addNode (fun m hm => hid ▸ hop _ ht m hm) (hid ▸ isGiven_nextId e _)
  | updateNode hn hp =>
    refine h.changeNode fun n hn' => ⟨rfl, ?_⟩
    obtain rfl := Option.some.inj (hn.symm.trans hn')
    exact Payload.type_of_readMembers hp
  | moveNode => exact h.changeNode fun _ _ => ⟨rfl, rfl⟩
  | deleteNode id => exact h.deleteNode id
  | addEdge hadmits => exact h.addEdge hadmits
  | removeEdge id => exact h.removeEdge id
  | deselect | deleteNothing | removeNothing | select | selectMisfit | setExecuting | setMisfit =>
    exact h
  | replaceState | importWorkflow | importExport => exact hop.elim
  | clear => exact .empty

end Graph.IsBuilt

/-! ### Selections -/

/-- What a state says is selected is one of its nodes, if anything is. -/
def EditorState.SelectsPresent (s : EditorState) : Prop :=
  ∀ id, s.selected = some id → ∃ n ∈ s.graph.nodes, n.id = id

/-- Whether an operation selects one of the nodes, or none, if it selects at all. -/
def Editor.Operation.SelectsPresent (e : Editor) : Operation → Prop
  | .select v => v = .null ∨ ∃ n ∈ e.state.graph.nodes, v = .str n.id
  | _ => True

namespace EditorState.SelectsPresent

lemma of_none {s : EditorState} (h : s.selected = none) : s.SelectsPresent := by
  intro id hid
  rw [h] at hid
  cases hid

lemma addNode {s : EditorState} (h : s.SelectsPresent) (n : Node) :
    { s with graph := s.graph.addNode n }.SelectsPresent := by
  intro id hid
  obtain ⟨m, hm, hmid⟩ := h id hid
  exact ⟨m, List.mem_append_left _ hm, hmid⟩

lemma changeNode {s : EditorState} (h : s.SelectsPresent) {id : String} {change : Node → Node}
    (hchange : ∀ n, (change n).id = n.id) :
    { s with graph := s.graph.changeNode id change }.SelectsPresent := by
  intro other hother
  have hids := @Graph.ids_changeNode s.graph id change fun n _ => hchange n
  obtain ⟨n, hn, rfl⟩ := h other hother
  exact List.mem_map.1 (hids ▸ List.mem_map_of_mem hn)

lemma deleteNode {s : EditorState} (h : s.SelectsPresent) (id : String) :
    { s with
      graph := s.graph.deleteNode id
      selected := if s.selected = some id then none else s.selected }.SelectsPresent := by
  intro other hother
  split_ifs at hother with hsame
  obtain ⟨n, hn, rfl⟩ := h other hother
  have hne : n.id ≠ id := fun heq => hsame (heq ▸ hother)
  exact ⟨n, by simp [Graph.deleteNode, hn, hne], rfl⟩

lemma step {e : Editor} (h : e.state.SelectsPresent) (hnone : e.misfits.selected = none)
    {op : Editor.Operation} (hop : op.Builds e) (hselects : op.SelectsPresent e)
    {state : EditorState} {misfits : Misfits} (hstep : e.Step op state misfits) :
    misfits.selected = none ∧ state.SelectsPresent := by
  cases hstep with
  | addNode => exact ⟨hnone, h.addNode _⟩
  | updateNode | moveNode => exact ⟨hnone, h.changeNode fun _ => rfl⟩
  | deleteNode id => exact ⟨hnone, h.deleteNode id⟩
  | deselect => exact ⟨rfl, .of_none rfl⟩
  | deleteNothing | removeNothing | setMisfit | addEdge | removeEdge | setExecuting =>
    exact ⟨hnone, h⟩
  | select id =>
    refine ⟨rfl, fun other hother => ?_⟩
    obtain rfl : id = some other := hother
    rcases hselects with hnull | ⟨n, hn, hid⟩
    · cases hnull
    · exact ⟨n, hn, (Value.str.inj hid).symm⟩
  | selectMisfit hmisfit =>
    rcases hselects with rfl | ⟨n, -, rfl⟩
    · exact absurd rfl (hmisfit none)
    · exact absurd rfl (hmisfit (some n.id))
  | replaceState | importWorkflow | importExport => exact hop.elim
  | clear => exact ⟨rfl, .of_none rfl⟩

end EditorState.SelectsPresent

namespace Editor

variable {e : Editor}

/-- A snapshot differs from the present in what is selected and in the executing flag at most. -/
lemma snapshot_eq_ok {s : EditorState} (h : e.snapshot = .ok s) :
    s.graph = e.state.graph ∧ (e.misfits.selected = none → s.selected = e.state.selected) := by
  obtain ⟨make, _, hmake, -, rfl⟩ := Reading.seq_eq_ok_iff.1 (snapshot_eq_ok_iff.1 h).1
  obtain ⟨selected, hselected, rfl⟩ := Reading.map_eq_ok_iff.1 hmake
  refine ⟨rfl, fun hnone => ?_⟩
  rw [hnone] at hselected
  exact (Reading.ok.inj hselected).symm

/-- All graphs that an editor holds are built, if it was used for building. -/
lemma ReachableBy.isBuilt (h : e.ReachableBy fun x op => op.Builds x) :
    ∀ s ∈ e.states, s.graph.IsBuilt := by
  have hsteady : Steady (fun _ => True) fun s => s.graph.IsBuilt :=
    ⟨trivial, fun _ _ => trivial, fun _ _ hs => hs,
      fun _ _ _ hx hs => (snapshot_eq_ok hs).1 ▸ hx⟩
  have hholds : e.Holds (fun _ => True) fun s => s.graph.IsBuilt :=
    h.holds hsteady .empty
      (fun _ _ _ _ hop hx hstep => ⟨trivial, hx.state.step hop hstep⟩)
      fun _ _ hop => hop.elim
  exact hholds.states

/-- No state that an editor holds selects a node that it does not have, if no operation did. -/
lemma ReachableBy.selectsPresent
    (h : e.ReachableBy fun x op => op.Builds x ∧ op.SelectsPresent x) :
    e.misfits.selected = none ∧ ∀ s ∈ e.states, s.SelectsPresent := by
  have hsteady : Steady (fun m => m.selected = none) EditorState.SelectsPresent := by
    refine ⟨rfl, fun _ hm => hm, fun _ _ hs => hs, fun x s hm hx hs => ?_⟩
    obtain ⟨hgraph, hselected⟩ := snapshot_eq_ok hs
    intro id hid
    exact hgraph ▸ hx id (hselected hm ▸ hid)
  have hholds : e.Holds (fun m => m.selected = none) EditorState.SelectsPresent :=
    h.holds hsteady (.of_none rfl)
      (fun _ _ _ _ hop hx hstep => hx.state.step hx.misfits hop.1 hop.2 hstep)
      fun _ _ hop => hop.1.elim
  exact ⟨hholds.misfits, hholds.states⟩

/--
If an editor was used for building, all graphs that it holds keep the rules, no two edges have the
same id, and the id of an edge is made of both its ends, so that no problem of a graph tells of a
broken rule. If nothing but nodes that were there was selected, nothing else is selected.
-/
theorem ReachableBy.keepsRules_of_builds (h : e.ReachableBy fun x op => op.Builds x) :
    (∀ s ∈ e.states, s.graph.KeepsRules ∧ (s.graph.edges.map Edge.id).Nodup ∧
      (∀ edge ∈ s.graph.edges, edge.id = Edge.makeId edge.source edge.target) ∧
      ∀ p ∈ s.graph.problems, ¬p.BreaksRule) ∧
    ((e.ReachableBy fun x op => op.Builds x ∧ op.SelectsPresent x) →
      (∀ s ∈ e.states, ∀ id, s.selected = some id → ∃ n ∈ s.graph.nodes, n.id = id) ∧
      (e.givenSelection = .null ∨ ∃ n ∈ e.state.graph.nodes, e.givenSelection = .str n.id)) := by
  refine ⟨fun s hs => ?_, fun hselects => ?_⟩
  · have hbuilt := h.isBuilt s hs
    exact ⟨hbuilt.toKeepsRules, hbuilt.edgeIds_nodup,
      fun edge hedge => congrArg Edge.id (hbuilt.between edge hedge),
      fun p hp => hbuilt.not_breaksRule hp⟩
  · obtain ⟨hnone, hpresent⟩ := hselects.selectsPresent
    refine ⟨hpresent, ?_⟩
    rw [givenSelection, hnone, Option.getD_none]
    cases hid : e.state.selected with
    | none => exact .inl rfl
    | some id =>
      obtain ⟨n, hn, rfl⟩ := hpresent e.state List.mem_cons_self id hid
      exact .inr ⟨n, hn, rfl⟩

lemma givenSelection_select (e : Editor) (id : String) :
    (e.perform (.select (.str id))).givenSelection = .str id :=
  (congrArg givenSelection (still_announce _ .selection) :)

/-- An editor with a start node and an end node. -/
def unjoined : Editor :=
  ((new {} false 0).perform (.addNode (.str "start") .null .null)).perform
    (.addNode (.str "end") .null .null)

lemma reachableBy_unjoined :
    unjoined.ReachableBy fun x op => op.Builds x ∧ op.SelectsPresent x := by
  have hopened : (new {} false 0).ReachableBy fun x op => op.Builds x ∧ op.SelectsPresent x :=
    .opened {} false 0 {} .standard
  refine (hopened.after (.addNode (.str "start") .null .null) ⟨nofun, trivial⟩).after
    _ ⟨fun t ht n hn => ?_, trivial⟩
  obtain rfl : NodeType.finish = t := Option.some.inj ht
  obtain rfl := List.mem_singleton.1 hn
  decide

/-- An editor in which a start node was joined to an end node, recorded, and selected. -/
def joined : Editor :=
  ((unjoined.perform (.addEdge "start-0-000000001" "end-0-000000002")).perform
    (.record true)).perform (.select (.str "start-0-000000001"))

/-- What was joined keeps the rules, in the present as in the history. -/
theorem ReachableBy.keepsRules_of_builds_joined :
    (joined.ReachableBy fun x op => op.Builds x ∧ op.SelectsPresent x) ∧
      joined.state.graph.edges = [.between "start-0-000000001" "end-0-000000002"] ∧
      joined.past.length = 1 ∧ (∀ s ∈ joined.states, s.graph.KeepsRules) ∧
      ∃ n ∈ joined.state.graph.nodes, joined.givenSelection = .str n.id := by
  have hjoined : joined.ReachableBy fun x op => op.Builds x ∧ op.SelectsPresent x := by
    refine .after (.after (.after reachableBy_unjoined _ ?_) _ ?_) _ ?_
    · exact ⟨trivial, trivial⟩
    · exact ⟨trivial, trivial⟩
    · exact ⟨trivial, .inr ⟨_, List.mem_cons_self, rfl⟩⟩
  obtain ⟨hrules, hselects⟩ :=
    ReachableBy.keepsRules_of_builds (hjoined.mono fun _ _ hop => hop.1)
  have hselected : joined.givenSelection = .str "start-0-000000001" := givenSelection_select _ _
  refine ⟨hjoined, by decide +kernel, by decide +kernel, fun s hs => (hrules s hs).1, ?_⟩
  exact (hselects hjoined).2.resolve_left (by simp [hselected])

end Editor

end Workflow
