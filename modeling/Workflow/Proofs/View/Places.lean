import Workflow.Proofs.View.Preview

/-!
# What has a place in the tree of a workflow

Each node has one line: in the branch of the start node if it can be reached from there, and among
the unreachable nodes otherwise. Below a node stands one line for each of its edges, in their order,
be it that of the next node or a mark, and the mark of a node that is met again comes after the line
of that node.
-/

namespace Workflow

/-! ### What stands where -/

/-- The node of a line, if it is that of a node. -/
def Line.node? : Line → Option Node
  | node n => some n
  | again _ | missing _ => none

/-- Whether a branch is another one or stands somewhere below it. -/
inductive Branch.Has : Branch → Branch → Prop where
  | self (b : Branch) : Has b b
  | deeper {n : Node} {children : List Branch} {b part : Branch} (hb : b ∈ children)
      (h : Has b part) : Has (.node n children) part

/-- What an edge to a target is shown by: the target's own branch, or one of two marks. -/
inductive Graph.Shows (g : Graph) (target : String) : Branch → Prop where
  | node {n : Node} (hn : g.find? target = some n) (children : List Branch) :
      Shows g target (.node n children)
  | again {n : Node} (hn : g.find? target = some n) : Shows g target (.again target)
  | missing (hn : ∀ n ∈ g.nodes, n.id ≠ target) : Shows g target (.missing target)

/-- Every mark of a node that is met again comes after its line, but for ids placed elsewhere. -/
def Line.ComeAfter (placed : String → Prop) (lines : List Line) : Prop :=
  ∀ before id after, lines = before ++ .again id :: after →
    placed id ∨ ∃ n, .node n ∈ before ∧ n.id = id

mutual

lemma Branch.filterMap_lines : ∀ b : Branch, b.lines.filterMap Line.node? = b.nodes
  | .node n children => by
    rw [lines, nodes, List.filterMap_cons_some (by rfl), Branch.filterMap_linesOf children]
  | .again _ | .missing _ => rfl

lemma Branch.filterMap_linesOf :
    ∀ bs : List Branch, (linesOf bs).filterMap Line.node? = nodesOf bs
  | [] => rfl
  | b :: bs => by
    rw [linesOf, nodesOf, List.filterMap_append, Branch.filterMap_lines b,
      Branch.filterMap_linesOf bs]

end

lemma Line.mem_filterMap_node? {lines : List Line} {n : Node} :
    n ∈ lines.filterMap node? ↔ .node n ∈ lines := by
  rw [List.mem_filterMap]
  constructor
  · rintro ⟨line, hline, hn⟩
    cases line with
    | node m => rwa [← Option.some.inj hn]
    | again | missing => cases hn
  · intro hn
    exact ⟨_, hn, rfl⟩

lemma Branch.node_mem_lines {b : Branch} {n : Node} : .node n ∈ b.lines ↔ n ∈ b.nodes := by
  rw [← Branch.filterMap_lines, Line.mem_filterMap_node?]

lemma Branch.node_mem_linesOf {bs : List Branch} {n : Node} :
    .node n ∈ linesOf bs ↔ n ∈ nodesOf bs := by
  rw [← Branch.filterMap_linesOf, Line.mem_filterMap_node?]

/-! ### Marks -/

section ComeAfter

variable {placed placed' : String → Prop} {lines lines' : List Line} {n : Node} {id : String}

lemma Line.ComeAfter.mono (h : ComeAfter placed lines) (hle : ∀ id, placed id → placed' id) :
    ComeAfter placed' lines :=
  fun before id after heq => (h before id after heq).imp_left (hle id)

lemma Line.comeAfter_nil : ComeAfter placed [] := by
  intro before id after heq
  simp at heq

lemma Line.comeAfter_missing (id : String) : ComeAfter placed [.missing id] := by
  intro before id' after heq
  rw [List.singleton_eq_append_iff] at heq
  simp at heq

lemma Line.comeAfter_again (hid : placed id) : ComeAfter placed [.again id] := by
  intro before id' after heq
  have hmem : Line.again id' ∈ [Line.again id] := heq ▸ List.mem_append_right _ List.mem_cons_self
  obtain rfl := Line.again.inj (List.mem_singleton.1 hmem)
  exact .inl hid

lemma Line.comeAfter_node (n : Node) : ComeAfter placed [.node n] := by
  intro before id after heq
  have hmem : Line.again id ∈ [Line.node n] := heq ▸ List.mem_append_right _ List.mem_cons_self
  cases List.mem_singleton.1 hmem

/-- The nodes of some lines are placed before what comes after these. -/
lemma Line.ComeAfter.append (h : ComeAfter placed lines)
    (h' : ComeAfter (fun id => placed id ∨ ∃ n, .node n ∈ lines ∧ n.id = id) lines') :
    ComeAfter placed (lines ++ lines') := by
  intro before id after heq
  rcases List.append_eq_append_iff.1 heq with ⟨more, rfl, hlater⟩ | ⟨rest, rfl, hrest⟩
  · rcases h' more id after hlater with (hid | ⟨n, hn, hid⟩) | ⟨n, hn, hid⟩
    · exact .inl hid
    · exact .inr ⟨n, List.mem_append_left _ hn, hid⟩
    · exact .inr ⟨n, List.mem_append_right _ hn, hid⟩
  · cases rest with
    | nil =>
      rw [List.append_nil] at h'
      rcases h' [] id after hrest.symm with hplaced | ⟨n, hn, -⟩
      · exact hplaced
      · cases hn
    | cons line rest =>
      obtain ⟨rfl, -⟩ := List.cons.inj hrest
      exact h before id rest rfl

end ComeAfter

/-! ### Growth -/

section Places

variable {g : Graph} {unseen targets left : List String} {branches : List Branch} {start n : Node}

/-- Every target is shown by a branch of its own. -/
lemma Graph.Grows.shows (h : g.Grows unseen targets branches left) :
    List.Forall₂ g.Shows targets branches := by
  induction h with
  | nil => exact .nil
  | missing hn _ ih => exact .cons (.missing (Graph.find?_eq_none_iff.1 hn)) ih
  | again hn _ _ ih => exact .cons (.again hn) ih
  | node hn _ _ _ _ ih => exact .cons (.node hn _) ih

/-- Below every node the targets of its edges are shown. -/
lemma Graph.Grows.shows_below (h : g.Grows unseen targets branches left) :
    ∀ b ∈ branches, ∀ n children, b.Has (.node n children) →
      List.Forall₂ g.Shows (g.targets n.id) children := by
  induction h with
  | nil => exact nofun
  | missing hn _ ih =>
    refine List.forall_mem_cons.2 ⟨fun n children hhas => ?_, ih⟩
    cases hhas
  | again hn _ _ ih =>
    refine List.forall_mem_cons.2 ⟨fun n children hhas => ?_, ih⟩
    cases hhas
  | node hn _ hchildren _ ih ih' =>
    refine List.forall_mem_cons.2 ⟨fun m below hhas => ?_, ih'⟩
    cases hhas with
    | self =>
      rw [Graph.id_of_find? hn]
      exact hchildren.shows
    | deeper hb hhas => exact ih _ hb m below hhas

lemma Graph.Grows.mem_nodes (h : g.Grows unseen targets branches left) :
    ∀ n ∈ Branch.nodesOf branches, n ∈ g.nodes := by
  induction h with
  | nil => exact nofun
  | missing _ _ ih | again _ _ _ ih => exact ih
  | node hn _ _ _ ih ih' =>
    refine List.forall_mem_append.2 ⟨?_, ih'⟩
    exact List.forall_mem_cons.2 ⟨Graph.mem_of_find? hn, ih⟩

/-- What is met again was placed before the branches grew, or has an earlier line among them. -/
lemma Graph.Grows.comeAfter (h : g.Grows unseen targets branches left) {placed : String → Prop}
    (hplaced : ∀ id ∈ g.ids, id ∉ unseen → placed id) :
    Line.ComeAfter placed (Branch.linesOf branches) := by
  induction h generalizing placed with
  | nil => exact Line.comeAfter_nil
  | missing _ _ ih =>
    exact (Line.comeAfter_missing _).append ((ih hplaced).mono fun _ => .inl)
  | @again _ _ _ target n _ hn hseen _ ih =>
    have hknown : target ∈ g.ids :=
      Graph.mem_ids.2 ⟨n, Graph.mem_of_find? hn, Graph.id_of_find? hn⟩
    exact (Line.comeAfter_again (hplaced target hknown hseen)).append
      ((ih hplaced).mono fun _ => .inl)
  | @node unseen later between _ target n children siblings hn hunseen hchildren _ ih ih' =>
    have hid : n.id = target := Graph.id_of_find? hn
    have hbelow : Line.ComeAfter (fun id => placed id ∨ ∃ m, .node m ∈ [Line.node n] ∧ m.id = id)
        (Branch.linesOf children) := by
      refine ih fun id hknown hnot => ?_
      by_cases hnew : id = target
      · exact .inr ⟨n, List.mem_singleton_self _, hid.trans hnew.symm⟩
      · exact .inl (hplaced id hknown fun hmem => hnot ((List.mem_erase_of_ne hnew).2 hmem))
    have hbranch : Line.ComeAfter placed (Branch.node n children).lines :=
      (Line.comeAfter_node n).append hbelow
    refine hbranch.append (ih' fun id hknown hnot => ?_)
    by_cases hmem : id ∈ unseen
    · -- of the ids without a place, those that have one now are the node's own and those below
      by_cases hnew : id = target
      · exact .inr ⟨n, List.mem_cons_self, hid.trans hnew.symm⟩
      · have hsome := hchildren.perm.mem_iff.2 ((List.mem_erase_of_ne hnew).2 hmem)
        have hsome := (List.mem_append.1 hsome).resolve_right hnot
        obtain ⟨m, hm, hmid⟩ := List.mem_map.1 hsome
        exact .inr ⟨m, List.mem_cons_of_mem _ (Branch.node_mem_linesOf.2 hm), hmid⟩
    · exact .inl (hplaced id hknown hmem)

/-! ### The branch of the start node -/

lemma Graph.growth_comeAfter (g : Graph) (start : Node) :
    Line.ComeAfter (fun _ => False) (g.growth start).1.lines := by
  refine (Line.comeAfter_node start).append
    ((g.grows_branches (g.ids.erase start.id) (g.targets start.id)).comeAfter ?_)
  intro id hknown hnot
  refine .inr ⟨start, List.mem_singleton_self _, ?_⟩
  by_contra hne
  exact hnot ((List.mem_erase_of_ne (Ne.symm hne)).2 hknown)

lemma Graph.growth_shows (g : Graph) (start : Node) {children : List Branch}
    (h : (g.growth start).1.Has (.node n children)) :
    List.Forall₂ g.Shows (g.targets n.id) children := by
  have hgrows := g.grows_branches (g.ids.erase start.id) (g.targets start.id)
  rw [Graph.growth] at h
  cases h with
  | self => exact hgrows.shows
  | deeper hb h => exact hgrows.shows_below _ hb n children h

lemma Graph.mem_nodes_of_growth (hstart : start ∈ g.nodes) (hn : n ∈ (g.growth start).1.nodes) :
    n ∈ g.nodes := by
  have hgrows := g.grows_branches (g.ids.erase start.id) (g.targets start.id)
  rcases List.mem_cons.1 hn with rfl | hn
  · exact hstart
  · exact hgrows.mem_nodes n hn

lemma Graph.nodup_growth (hstart : start.id ∈ g.ids) :
    ((g.growth start).1.nodes.map Node.id).Nodup := by
  have hgrows := g.grows_branches (g.ids.erase start.id) (g.targets start.id)
  have hall := (hgrows.perm.cons start.id).trans (List.perm_cons_erase hstart).symm
  have hnodup := hall.nodup_iff.2 g.nodup_ids
  rw [← List.cons_append] at hnodup
  exact hnodup.of_append_left

/-- Where no id is there twice, the branch holds the nodes to which a way leads along nodes. -/
lemma Graph.mem_growth_iff (hids : (g.nodes.map Node.id).Nodup) (hstart : start ∈ g.nodes)
    (hn : n ∈ g.nodes) :
    n ∈ (g.growth start).1.nodes ↔ Within g.targets g.ids start.id n.id := by
  have hknown : start.id ∈ g.ids := Graph.mem_ids.2 ⟨start, hstart, rfl⟩
  have hreachable : n.id ∈ (g.growth start).1.nodes.map Node.id ↔
      Within g.targets g.ids start.id n.id := by
    rw [← Graph.reachable_eq_growth hknown, Graph.mem_reachable_iff]
    exact and_iff_right hknown
  rw [← hreachable]
  refine ⟨List.mem_map_of_mem, fun hid => ?_⟩
  obtain ⟨m, hm, hmid⟩ := List.mem_map.1 hid
  rwa [← List.inj_on_of_nodup_map hids (Graph.mem_nodes_of_growth hstart hm) hn hmid]

/-- What is listed beside the branch is what it does not hold. -/
lemma Graph.mem_orphans_iff (hstart : start.id ∈ g.ids) (hn : n ∈ g.nodes) :
    n ∈ (g.growth start).2 ↔ ¬Within g.targets g.ids start.id n.id := by
  rw [Graph.growth_orphans hstart, List.mem_filter]
  simp [hn, Graph.mem_reachable_iff, hstart]

/-- The nodes of the branch and those beside it are all nodes, each of them once. -/
lemma Graph.perm_growth (hids : (g.nodes.map Node.id).Nodup) (hstart : start ∈ g.nodes) :
    ((g.growth start).1.nodes ++ (g.growth start).2).Perm g.nodes := by
  have hknown : start.id ∈ g.ids := Graph.mem_ids.2 ⟨start, hstart, rfl⟩
  have hsub : (g.growth start).2.Sublist g.nodes := by
    rw [Graph.growth_orphans hknown]
    exact List.filter_sublist
  have hnodup : ((g.growth start).1.nodes ++ (g.growth start).2).Nodup := by
    refine List.nodup_append'.2 ⟨.of_map _ (Graph.nodup_growth hknown),
      (List.Nodup.of_map _ hids).sublist hsub, fun n hn horphan => ?_⟩
    have hmem := hsub.subset horphan
    exact (Graph.mem_orphans_iff hknown hmem).1 horphan
      ((Graph.mem_growth_iff hids hstart hmem).1 hn)
  refine (List.perm_ext_iff_of_nodup hnodup (.of_map _ hids)).2 fun n => ?_
  rw [List.mem_append]
  constructor
  · rintro (hn | hn)
    · exact Graph.mem_nodes_of_growth hstart hn
    · exact hsub.subset hn
  · intro hn
    rw [Graph.mem_growth_iff hids hstart hn, Graph.mem_orphans_iff hknown hn]
    exact em _

end Places

/--
The tree of a graph in which no id is there twice, and which has a start node. The first branch
begins with the start node, and the second, which is missing if it would be empty, lists unreachable
nodes in their order. Each node has one line in one of the two, and it is in the first exactly if a
way leads to it from the start node, along edges and nodes. Below the line of a node in the first
branch stand as many branches as edges leave the node, in their order: each is that of the edge's
target, or marks that no node has this id, or that the target is met again. Its own line then
stands before the mark.
-/
theorem Graph.tree_places_all {g : Graph} {start : Node} (hids : (g.nodes.map Node.id).Nodup)
    (hs : g.start? = some start) :
    let branch := (g.growth start).1
    let orphans := (g.growth start).2
    (∀ title, g.tree title = .mk ("[bold]" ++ Text.escapeMarkup title ++ "[/]")
      (branch.toTree :: if orphans = [] then [] else
        [.mk "[dim]Unreachable[/]" (orphans.map fun n => .mk n.line [])])) ∧
    branch.toTree.labels = branch.lines.map Line.markup ∧
    (∃ children, branch = .node start children) ∧
    (branch.lines.filterMap Line.node? ++ orphans).Perm g.nodes ∧
    (∀ n ∈ g.nodes, .node n ∈ branch.lines ↔ Within g.targets g.ids start.id n.id) ∧
    orphans.Sublist g.nodes ∧
    (∀ n children, branch.Has (.node n children) →
      List.Forall₂ (fun e b => g.Shows e.target b) (g.edgesFrom n.id) children) ∧
    ∀ before id after, branch.lines = before ++ .again id :: after →
      ∃ n, .node n ∈ before ∧ n.id = id := by
  intro branch orphans
  have hstart : start ∈ g.nodes := (Graph.start?_mem hs).1
  have hknown : start.id ∈ g.ids := Graph.mem_ids.2 ⟨start, hstart, rfl⟩
  refine ⟨fun title => ?_, Branch.labels_toTree branch, ⟨_, rfl⟩, ?_, fun n hn => ?_, ?_,
    fun n children hhas => ?_, fun before id after heq => ?_⟩
  · simp only [Graph.tree, hs, List.isEmpty_iff, orphans, branch]
  · rw [Branch.filterMap_lines]
    exact Graph.perm_growth hids hstart
  · rw [Branch.node_mem_lines]
    exact Graph.mem_growth_iff hids hstart hn
  · rw [show orphans = _ from Graph.growth_orphans hknown]
    exact List.filter_sublist
  · exact List.forall₂_map_left_iff.1 (g.growth_shows start hhas)
  · exact (g.growth_comeAfter start before id after heq).resolve_left not_false

/--
A start node from which two edges lead to one node, which leads back, and nowhere, and to an end
node. That one is also fed by a node that nothing leads to.
-/
def Graph.tangled : Graph where
  nodes := [⟨"d", ⟨0, 0⟩, .standard .transform⟩, ⟨"a", ⟨0, 0⟩, .standard .start⟩,
    ⟨"b", ⟨0, 0⟩, .standard .transform⟩, ⟨"c", ⟨0, 0⟩, .standard .finish⟩]
  edges := [.between "a" "b", .between "a" "b", .between "b" "a", .between "b" "x",
    .between "d" "c", .between "b" "c"]

/-- All have their lines, and the two marks of nodes that are met again come after those. -/
theorem Graph.tree_places_all_tangled :
    (Graph.tangled.nodes.map Node.id).Nodup ∧
    Graph.tangled.start? = some ⟨"a", ⟨0, 0⟩, .standard .start⟩ ∧
    let grown := Graph.tangled.growth ⟨"a", ⟨0, 0⟩, .standard .start⟩
    grown.1.lines.map Line.id = ["a", "b", "a", "x", "c", "b"] ∧
    (grown.1.lines.filterMap Line.node? ++ grown.2).Perm Graph.tangled.nodes ∧
    ∀ before id after, grown.1.lines = before ++ .again id :: after →
      ∃ n, .node n ∈ before ∧ n.id = id := by
  have hids : (Graph.tangled.nodes.map Node.id).Nodup := by decide
  have hs : Graph.tangled.start? = some ⟨"a", ⟨0, 0⟩, .standard .start⟩ := rfl
  obtain ⟨-, -, -, hperm, -, -, -, hmarks⟩ := Graph.tree_places_all hids hs
  refine ⟨hids, hs, ?_, hperm, hmarks⟩
  simp [Graph.tangled, Graph.growth, Graph.branches, Graph.find?, Graph.targets,
    Graph.edgesFrom, Edge.between, Graph.ids, List.eraseDups_cons, Branch.lines, Branch.linesOf,
    Line.id]

end Workflow
