import Workflow.Proofs.Graph.Validity
import Workflow.Proofs.Run.Tree
import Workflow.View.Tree

/-!
# What a tree of a workflow reaches

The branch of the start node holds exactly the nodes that an exploration from there lists, and in
the same order. So the nodes that the tree lists as unreachable are those of which a problem says
so, and those that a run does not come to if it succeeds.
-/

namespace Workflow

/-! ### How branches grow -/

/--
From some ids that have no place yet and the targets of some edges grow branches, and some of the
ids are left without a place.
-/
inductive Graph.Grows (g : Graph) : List String → List String → List Branch → List String → Prop
  | nil (unseen : List String) : Grows g unseen [] [] unseen
  | missing {unseen later left : List String} {target : String} {siblings : List Branch}
      (hn : g.find? target = none) (h : Grows g unseen later siblings left) :
      Grows g unseen (target :: later) (.missing target :: siblings) left
  | again {unseen later left : List String} {target : String} {n : Node} {siblings : List Branch}
      (hn : g.find? target = some n) (hseen : target ∉ unseen)
      (h : Grows g unseen later siblings left) :
      Grows g unseen (target :: later) (.again target :: siblings) left
  | node {unseen later between left : List String} {target : String} {n : Node}
      {children siblings : List Branch} (hn : g.find? target = some n) (hunseen : target ∈ unseen)
      (hchildren : Grows g (unseen.erase target) (g.targets target) children between)
      (hsiblings : Grows g between later siblings left) :
      Grows g unseen (target :: later) (.node n children :: siblings) left

section Growth

variable {g : Graph} {unseen targets left : List String} {branches : List Branch} {start : Node}

/-- The branches of a graph grow so. -/
lemma Graph.grows_branches (g : Graph) (unseen targets : List String) :
    g.Grows unseen targets (g.branches unseen targets).1 (g.branches unseen targets).2 := by
  induction unseen, targets using Graph.branches.induct g with
  | case1 unseen =>
    rw [Graph.branches]
    exact .nil unseen
  | case2 unseen target later hn siblings left heq ih =>
    rw [Graph.branches, hn, heq]
    rw [heq] at ih
    exact .missing hn ih
  | case3 unseen target later n hn hunseen _ _ between _ heq _ _ _ _ _ ih ih' =>
    obtain rfl : (g.branches (unseen.erase target) (g.targets target)).2.1 = between := by rw [heq]
    rw [Graph.branches, hn]
    simp only [hunseen, ↓reduceDIte]
    exact .node hn hunseen ih ih'
  | case4 unseen target later n hn hunseen siblings left heq ih =>
    rw [Graph.branches, hn]
    simp only [hunseen, ↓reduceDIte, heq]
    rw [heq] at ih
    exact .again hn hunseen ih

/-- Each id that had no place has one now, or is left without one. -/
lemma Graph.Grows.perm (h : g.Grows unseen targets branches left) :
    ((Branch.nodesOf branches).map Node.id ++ left).Perm unseen := by
  induction h with
  | nil unseen => exact .refl _
  | missing hn h ih => exact ih
  | again hn hseen h ih => exact ih
  | @node unseen later between left target n children siblings hn hunseen _ _ ih ih' =>
    have hid : n.id = target := Graph.id_of_find? hn
    have hrest : ((Branch.nodesOf children).map Node.id
        ++ ((Branch.nodesOf siblings).map Node.id ++ left)).Perm (unseen.erase target) :=
      (ih'.append_left _).trans ih
    have hcons := (hrest.cons target).trans (List.perm_cons_erase hunseen).symm
    simpa [Branch.nodesOf, Branch.nodes, hid] using hcons

/-- An exploration lists the nodes of the branches first, and goes on with the ids that are left. -/
lemma Graph.Grows.explore_append (h : g.Grows unseen targets branches left)
    (hknown : unseen ⊆ g.ids) (agenda : List String) :
    explore g.targets unseen (targets ++ agenda)
      = (Branch.nodesOf branches).map Node.id ++ explore g.targets left agenda := by
  induction h generalizing agenda with
  | nil unseen => rfl
  | @missing unseen _ _ target _ hn _ ih =>
    -- an exploration does not ask whether an id is known, but only known ones are unseen
    have hunseen : target ∉ unseen := by
      intro hmem
      obtain ⟨n, hmem', hid⟩ := Graph.mem_ids.1 (hknown hmem)
      exact Graph.find?_eq_none_iff.1 hn n hmem' hid
    rw [List.cons_append, explore_cons_of_not_mem hunseen, ih hknown]
    rfl
  | again hn hseen _ ih =>
    rw [List.cons_append, explore_cons_of_not_mem hseen, ih hknown]
    rfl
  | @node unseen later between left target n children siblings hn hunseen hchildren _ ih ih' =>
    have hid : n.id = target := Graph.id_of_find? hn
    have herased : unseen.erase target ⊆ g.ids := fun id hmem => hknown (List.mem_of_mem_erase hmem)
    have hbetween : between ⊆ g.ids := fun id hmem =>
      herased (hchildren.perm.subset (List.mem_append_right _ hmem))
    rw [List.cons_append, explore_cons_of_mem hunseen, ih herased, ih' hbetween]
    simp [Branch.nodesOf, Branch.nodes, hid]

/-! ### The branch of the start node -/

/-- The branch of a known node holds what can be reached from there, in the order of exploration. -/
lemma Graph.reachable_eq_growth (hstart : start.id ∈ g.ids) :
    g.reachable start.id = (g.growth start).1.nodes.map Node.id := by
  have hgrows := g.grows_branches (g.ids.erase start.id) (g.targets start.id)
  have hknown : g.ids.erase start.id ⊆ g.ids := fun id hmem => List.mem_of_mem_erase hmem
  have hlisted := hgrows.explore_append hknown []
  rw [Graph.reachable, explore_cons_of_mem hstart, hlisted]
  simp [Graph.growth, Branch.nodes, explore]

/-- What is left beside the branch of a known node is what cannot be reached from there. -/
lemma Graph.growth_orphans (hstart : start.id ∈ g.ids) :
    (g.growth start).2 = g.nodes.filter fun n => !(g.reachable start.id).contains n.id := by
  have hgrows := g.grows_branches (g.ids.erase start.id) (g.targets start.id)
  rw [Graph.reachable_eq_growth hstart]
  simp only [Graph.growth, Branch.nodes, List.map_cons]
  generalize (g.branches (g.ids.erase start.id) (g.targets start.id)).1 = branches at hgrows
  generalize (g.branches (g.ids.erase start.id) (g.targets start.id)).2.1 = left at hgrows
  -- the ids of the branch and those that are left make up all ids, each of which is there once
  have hall : (start.id :: ((Branch.nodesOf branches).map Node.id ++ left)).Perm g.ids :=
    (hgrows.perm.cons start.id).trans (List.perm_cons_erase hstart).symm
  have hnodup := hall.nodup_iff.2 g.nodup_ids
  apply List.filter_congr
  intro n hn
  have hmem : n.id ∈ start.id :: ((Branch.nodesOf branches).map Node.id ++ left) :=
    hall.mem_iff.2 (Graph.mem_ids.2 ⟨n, hn, rfl⟩)
  rw [← List.cons_append] at hmem hnodup
  have hdisjoint := (List.nodup_append'.1 hnodup).2.2
  by_cases hleft : n.id ∈ left
  · have hplaced : n.id ∉ start.id :: (Branch.nodesOf branches).map Node.id :=
      fun hplaced => hdisjoint hplaced hleft
    simp only [List.contains_eq_mem, hleft, hplaced, decide_true, decide_false, Bool.not_false]
  · have hplaced := (List.mem_append.1 hmem).resolve_right hleft
    simp only [List.contains_eq_mem, hleft, hplaced, decide_true, decide_false, Bool.not_true]

/-! ### What is out of reach -/

/-- Whether a problem tells of a node that is out of reach. -/
def Problem.isUnreachable : Problem → Bool
  | unreachable _ => true
  | _ => false

/-- The problems of unreachable nodes are those that the search from the start node has found. -/
lemma Graph.filter_isUnreachable_problems (g : Graph) :
    g.problems.filter Problem.isUnreachable = g.reachProblems := by
  have hcycles : ∀ p ∈ g.cycleProblems, ¬p.isUnreachable = true := by
    intro p hp
    rcases Graph.of_mem_cycleProblems hp with rfl | ⟨_, rfl⟩ <;> exact Bool.false_ne_true
  have hreach : ∀ p ∈ g.reachProblems, p.isUnreachable = true := by
    intro p hp
    obtain ⟨id, rfl⟩ := Graph.of_mem_reachProblems hp
    rfl
  rw [Graph.filter_problems (fun p hp => by cases p <;> first | rfl | cases hp) rfl
    (fun _ _ => rfl) rfl, List.filter_eq_nil_iff.2 hcycles, List.filter_eq_self.2 hreach,
    List.nil_append]

/-- A run that succeeds comes to the nodes that can be reached. -/
lemma Graph.mem_idsOf_execute_iff {clock : Nat → Int} (hs : g.start? = some start)
    (hnone : (g.execute clock).error? = none) {id : String} :
    id ∈ idsOf (g.execute clock).trace ↔ id ∈ g.reachable start.id := by
  have hcan : g.canExecute = true := by
    rw [← Bool.not_eq_false]
    intro hcannot
    obtain ⟨e, he, -⟩ := (g.execute_fails_bare_iff clock).2 hcannot
    rw [hnone] at he
    cases he
  obtain ⟨-, hend⟩ := Graph.canExecute_iff.1 hcan
  rw [Graph.execute_of_begins clock hs hend] at hnone ⊢
  rw [Option.map_eq_none_iff] at hnone
  obtain ⟨htree, -⟩ := (g.walk_error?_eq_none_iff clock start.id).1 hnone
  have hstart : start.id ∈ g.ids := Graph.mem_ids.2 ⟨start, (Graph.start?_mem hs).1, rfl⟩
  have hknown : ∀ e ∈ g.edges, g.Reaches start.id e.source → e.target ∈ g.ids :=
    fun e he hsource => Graph.mem_ids.2 (htree.known e he hsource)
  rw [Graph.mem_reachable_iff_reaches hstart hknown]
  exact (g.walk_ids clock start.id hnone).2 id

end Growth

/--
Under its branch of unreachable nodes, which is missing if there are none, the tree lists the nodes
of which a problem says that they are out of reach, in their order and as often as they are there.
They are also those that a run does not come to if it succeeds.
-/
theorem Graph.tree_lists_unreachable {g : Graph} {start : Node} (hs : g.start? = some start) :
    let orphans := (g.growth start).2
    (∀ title, g.tree title = .mk ("[bold]" ++ Text.escapeMarkup title ++ "[/]")
      ((g.growth start).1.toTree :: if orphans = [] then [] else
        [.mk "[dim]Unreachable[/]" (orphans.map fun n => .mk n.line [])])) ∧
    orphans = g.nodes.filter (fun n => .unreachable n.id ∈ g.problems) ∧
    orphans.map (fun n => .unreachable n.id) = g.problems.filter Problem.isUnreachable ∧
    ∀ clock, (g.execute clock).error? = none →
      ∀ n ∈ g.nodes, n ∈ orphans ↔ n.id ∉ idsOf (g.execute clock).trace := by
  intro orphans
  have hstart : start.id ∈ g.ids := Graph.mem_ids.2 ⟨start, (Graph.start?_mem hs).1, rfl⟩
  have horphans : orphans = g.nodes.filter fun n => !(g.reachable start.id).contains n.id :=
    Graph.growth_orphans hstart
  have hreported : g.problems.filter Problem.isUnreachable
      = orphans.map fun n => .unreachable n.id := by
    rw [Graph.filter_isUnreachable_problems, Graph.reachProblems, hs, horphans]
  have hmem : ∀ n ∈ g.nodes, .unreachable n.id ∈ g.problems ↔ n.id ∉ g.reachable start.id := by
    intro n hn
    have hfilter : .unreachable n.id ∈ g.problems
        ↔ .unreachable n.id ∈ g.problems.filter Problem.isUnreachable := by
      simp [Problem.isUnreachable]
    rw [hfilter, hreported, horphans]
    constructor
    · intro hn'
      obtain ⟨m, hm, hid⟩ := List.mem_map.1 hn'
      rw [← Problem.unreachable.inj hid]
      simpa using (List.mem_filter.1 hm).2
    · intro hn'
      exact List.mem_map.2 ⟨n, List.mem_filter.2 ⟨hn, by simpa using hn'⟩, rfl⟩
  refine ⟨fun title => ?_, ?_, hreported.symm, fun clock hnone n hn => ?_⟩
  · simp only [Graph.tree, hs, List.isEmpty_iff, orphans]
  · rw [horphans]
    apply List.filter_congr
    intro n hn
    simp [hmem n hn]
  · rw [Graph.mem_idsOf_execute_iff hs hnone, horphans]
    simp [hn]

/-- A start node that leads to an end node, and two nodes of one id that feed themselves. -/
def Graph.scattered : Graph where
  nodes := [⟨"c", ⟨0, 0⟩, .standard .transform⟩, ⟨"a", ⟨0, 0⟩, .standard .start⟩,
    ⟨"b", ⟨0, 0⟩, .standard .finish⟩, ⟨"c", ⟨1, 1⟩, .standard .transform⟩]
  edges := [.between "a" "b", .between "c" "c", .between "c" "x", .between "y" "b"]

/-- Both nodes of one id are listed, once each, and edges that lead nowhere do not matter. -/
theorem Graph.tree_lists_unreachable_scattered :
    Graph.scattered.start? = some ⟨"a", ⟨0, 0⟩, .standard .start⟩ ∧
    let orphans := (Graph.scattered.growth ⟨"a", ⟨0, 0⟩, .standard .start⟩).2
    orphans.map Node.id = ["c", "c"] ∧
    orphans.map (fun n => .unreachable n.id)
      = Graph.scattered.problems.filter Problem.isUnreachable ∧
    ∀ clock, (Graph.scattered.execute clock).error? = none →
      ∀ n ∈ Graph.scattered.nodes, n ∈ orphans ↔
        n.id ∉ idsOf (Graph.scattered.execute clock).trace := by
  have hs : Graph.scattered.start? = some ⟨"a", ⟨0, 0⟩, .standard .start⟩ := rfl
  obtain ⟨-, -, hproblems, htrace⟩ := Graph.tree_lists_unreachable hs
  have hids : (Graph.scattered.growth ⟨"a", ⟨0, 0⟩, .standard .start⟩).2.map Node.id
      = ["c", "c"] := by
    simp [Graph.scattered, Graph.growth, Graph.branches, Graph.find?, Graph.targets,
      Graph.edgesFrom, Edge.between, Graph.ids, List.eraseDups_cons]
  exact ⟨hs, hids, hproblems, htrace⟩

end Workflow
