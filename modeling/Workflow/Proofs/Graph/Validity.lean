import Workflow.Proofs.Graph.Cycle
import Workflow.Proofs.Graph.Explore
import Workflow.Proofs.Graph.Tree

/-!
# Graphs without problems

A graph has no problem exactly if it is a tree that can be run: its only start node is the root of
all other nodes, and the end nodes are among its leaves.
-/

namespace Workflow.Graph

/-- A tree that can be run: its only start node leads to every node, along one way each. -/
structure IsRunnableTree (g : Graph) : Prop where
  nodes_nodup : (g.nodes.map Node.id).Nodup
  one_start : g.nodes.countP (fun n => n.type = .start) = 1
  some_end : ∃ n ∈ g.nodes, n.type = .finish
  source_known : ∀ e ∈ g.edges, ∃ n ∈ g.nodes, n.id = e.source
  target_known : ∀ e ∈ g.edges, ∃ n ∈ g.nodes, n.id = e.target
  inputs : ∀ n ∈ g.nodes,
    g.edges.countP (fun e => e.target = n.id) = if n.type = .start then 0 else 1
  source_type : ∀ e ∈ g.edges, ∀ n ∈ g.nodes, n.id = e.source → n.type ≠ .finish
  reached : ∀ start ∈ g.nodes, start.type = .start → ∀ n ∈ g.nodes, g.Reaches start.id n.id

variable {g : Graph}

/-! ### Start and end nodes -/

lemma start?_mem {start : Node} (h : g.start? = some start) :
    start ∈ g.nodes ∧ start.type = .start :=
  ⟨List.mem_of_find?_eq_some h, by simpa using List.find?_some h⟩

lemma exists_start? (h : ∃ n ∈ g.nodes, n.type = .start) : ∃ start, g.start? = some start := by
  obtain ⟨n, hn, htype⟩ := h
  rw [← Option.isSome_iff_exists, start?, List.find?_isSome]
  exact ⟨n, hn, by simpa using htype⟩

lemma hasEnd_iff : g.hasEnd = true ↔ ∃ n ∈ g.nodes, n.type = .finish := by
  simp [hasEnd]

lemma endpointProblems_eq_nil_iff :
    g.endpointProblems = [] ↔
      g.nodes.countP (fun n => n.type = .start) = 1 ∧ ∃ n ∈ g.nodes, n.type = .finish := by
  have hlength : g.nodes.countP (fun n => n.type = .start)
      = ((g.nodes.filter fun n => n.type = .start).map Node.id).length := by
    rw [List.length_map, List.countP_eq_length_filter]
  have hends : (if g.hasEnd then [] else [Problem.noEnd]) = []
      ↔ ∃ n ∈ g.nodes, n.type = .finish := by
    rw [← hasEnd_iff]
    split_ifs with h <;> simp [h]
  rw [endpointProblems, List.append_eq_nil_iff, hends, hlength]
  refine and_congr_left fun _ => ?_
  split
  · next h => simp [h]
  · next h => simp [h]
  · next hmore h =>
    rw [h, List.length_cons]
    simpa using hmore

/-! ### Reach -/

lemma reachProblems_eq_nil_iff :
    g.reachProblems = [] ↔
      ∀ start, g.start? = some start → ∀ n ∈ g.nodes, n.id ∈ g.reachable start.id := by
  rw [reachProblems]
  split
  · next h => simp [h]
  · next start h => simp [h, List.filter_eq_nil_iff]

/-- By the rules, no node is out of reach exactly if the start node reaches them all. -/
lemma KeepsRules.mem_reachable_iff (h : g.KeepsRules) {start : Node} (hstart : start ∈ g.nodes)
    {id : String} : id ∈ g.reachable start.id ↔ g.Reaches start.id id :=
  mem_reachable_iff_reaches (mem_ids.2 ⟨start, hstart, rfl⟩)
    fun e he _ => mem_ids.2 (h.target_known e he)

lemma cycleProblems_eq_nil (h : ∀ limit, g.cycles limit = []) : g.cycleProblems = [] := by
  simp [cycleProblems, h]

/-! ### Trees without problems -/

lemma nodup_targets_of_inputs (hknown : ∀ e ∈ g.edges, ∃ n ∈ g.nodes, n.id = e.target)
    (hinputs : ∀ n ∈ g.nodes, g.edges.countP (fun e => e.target = n.id) ≤ 1) :
    (g.edges.map Edge.target).Nodup := by
  rw [List.nodup_iff_count_le_one]
  intro id
  by_cases hid : id ∈ g.edges.map Edge.target
  · obtain ⟨e, he, rfl⟩ := List.mem_map.1 hid
    obtain ⟨n, hn, hn'⟩ := hknown e he
    have hle := hinputs n hn
    rw [hn'] at hle
    rw [count_map_target]
    exact hle
  · simp [List.count_eq_zero.2 hid]

lemma IsRunnableTree.keepsRules (h : g.IsRunnableTree) : g.KeepsRules where
  nodes_nodup := h.nodes_nodup
  source_known := h.source_known
  target_known := h.target_known
  source_type := h.source_type
  target_type e he n hn hid htype := by
    have hnone := h.inputs n hn
    rw [if_pos htype, List.countP_eq_zero] at hnone
    exact hnone e he (by simp [hid])
  targets_nodup := by
    refine nodup_targets_of_inputs h.target_known fun n hn => ?_
    rw [h.inputs n hn]
    split_ifs <;> omega

lemma IsRunnableTree.exists_start (h : g.IsRunnableTree) : ∃ n ∈ g.nodes, n.type = .start := by
  have hpos : 0 < g.nodes.countP fun n => n.type = .start := by
    rw [h.one_start]
    exact Nat.one_pos
  simpa using List.countP_pos_iff.1 hpos

/-- No id of a tree that can be run leads back to itself: each that leads on is reached. -/
lemma IsRunnableTree.not_leadsTo_self (h : g.IsRunnableTree) (id : String) : ¬g.LeadsTo id id := by
  intro hback
  obtain ⟨start, hstart, htype⟩ := h.exists_start
  obtain ⟨e, he, rfl⟩ := hback.first
  obtain ⟨n, hn, hid⟩ := h.source_known e he
  have hreach : g.Reaches start.id e.source := hid ▸ h.reached start hstart htype n hn
  exact (h.keepsRules.isTree hstart htype).not_leadsTo_self hreach hback

/-- A tree that can be run has no problem. -/
lemma IsRunnableTree.problems_eq_nil (h : g.IsRunnableTree) : g.problems = [] := by
  simp only [problems_eq, List.append_eq_nil_iff]
  refine ⟨breaches_eq_nil_iff.2 h.keepsRules, ⟨?_, ?_⟩, ?_⟩
  · exact endpointProblems_eq_nil_iff.2 ⟨h.one_start, h.some_end⟩
  · exact cycleProblems_eq_nil (cycles_eq_nil_of_acyclic h.not_leadsTo_self)
  · refine reachProblems_eq_nil_iff.2 fun start hs n hn => ?_
    obtain ⟨hstart, htype⟩ := start?_mem hs
    exact (h.keepsRules.mem_reachable_iff hstart).2 (h.reached start hstart htype n hn)

/-! ### Graphs without problems are trees -/

/-- The only start node is the first one. -/
lemma start?_eq_of_one_start (h : g.nodes.countP (fun n => n.type = .start) = 1) {n : Node}
    (hn : n ∈ g.nodes) (htype : n.type = .start) : g.start? = some n := by
  obtain ⟨start, hs⟩ := exists_start? ⟨n, hn, htype⟩
  obtain ⟨hstart, htype'⟩ := start?_mem hs
  rw [hs, eq_of_countP_eq_one h hstart hn (by simpa using htype') (by simpa using htype)]

/-- By the rules, a node that the start node reaches has no input or one, as its type demands. -/
lemma KeepsRules.countP_target_eq (h : g.KeepsRules) {start n : Node} (hstart : start ∈ g.nodes)
    (htype : start.type = .start) (hn : n ∈ g.nodes) (hreach : g.Reaches start.id n.id) :
    g.edges.countP (fun e => e.target = n.id) = if n.type = .start then 0 else 1 := by
  split_ifs with hn'
  · refine List.countP_eq_zero.2 fun e he => ?_
    simpa [eq_comm] using fun hid => h.target_type e he n hn hid hn'
  · have hle := List.nodup_iff_count_le_one.1 h.targets_nodup n.id
    have hmem : n.id ∈ g.edges.map Edge.target := by
      rcases Relation.ReflTransGen.cases_tail hreach with heq | ⟨parent, -, hstep⟩
      · rw [List.inj_on_of_nodup_map h.nodes_nodup hn hstart heq] at hn'
        exact absurd htype hn'
      · obtain ⟨e, he, -, htarget⟩ := mem_targets.1 hstep
        exact List.mem_map.2 ⟨e, he, htarget⟩
    have hpos := List.count_pos_iff.2 hmem
    rw [count_map_target] at hle hpos
    omega

/-- A graph without problems is a tree that can be run. -/
lemma isRunnableTree_of_problems_eq_nil (h : g.problems = []) : g.IsRunnableTree := by
  simp only [problems_eq, List.append_eq_nil_iff] at h
  obtain ⟨hbreaches, ⟨hendpoints, -⟩, hreach⟩ := h
  have hrules := breaches_eq_nil_iff.1 hbreaches
  obtain ⟨hone, hend⟩ := endpointProblems_eq_nil_iff.1 hendpoints
  have hreached : ∀ start ∈ g.nodes, start.type = .start → ∀ n ∈ g.nodes,
      g.Reaches start.id n.id := by
    intro start hstart htype n hn
    have hs := start?_eq_of_one_start hone hstart htype
    exact (hrules.mem_reachable_iff hstart).1 (reachProblems_eq_nil_iff.1 hreach start hs n hn)
  refine ⟨hrules.nodes_nodup, hone, hend, hrules.source_known, hrules.target_known,
    fun n hn => ?_, hrules.source_type, hreached⟩
  have hpos : 0 < g.nodes.countP fun n => n.type = .start := hone ▸ Nat.one_pos
  obtain ⟨start, hstart, htype⟩ := List.countP_pos_iff.1 hpos
  have htype' : start.type = .start := by simpa using htype
  exact hrules.countP_target_eq hstart htype' hn (hreached start hstart htype' n hn)

/-- A graph has no problem exactly if it is a tree that can be run. -/
theorem problems_eq_nil_iff_isRunnableTree (g : Graph) : g.problems = [] ↔ g.IsRunnableTree :=
  ⟨isRunnableTree_of_problems_eq_nil, IsRunnableTree.problems_eq_nil⟩

end Workflow.Graph
