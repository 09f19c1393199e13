import Mathlib.Data.List.Nodup
import Mathlib.Tactic
import Workflow.Editor.Edit
import Workflow.Graph.Problem

/-!
# The rules of a graph

The rules that an editor keeps while it changes a graph, and the problems that tell of a broken one.
A graph keeps the rules exactly if none of those problems is found, and each change that an editor
makes to a graph keeps them.
-/

namespace Workflow

/-- Whether a problem tells of a broken rule, rather than of something that is still missing. -/
def Problem.BreaksRule : Problem → Prop
  | duplicateNode _ | duplicateEdge _ _ | unknownSource _ _ | unknownTarget _ _
  | endWithOutput _ _ | startWithInput _ _ | manyInputs _ _ => True
  | noStart | manyStarts _ _ | noEnd | cycle _ | tooManyCycles | unreachable _ => False

namespace Graph

/--
The rules of a graph: no id stands for two nodes, each edge joins two nodes, no end node has an
output, no start node an input, and no node two inputs.
-/
structure KeepsRules (g : Graph) : Prop where
  nodes_nodup : (g.nodes.map Node.id).Nodup
  source_known : ∀ e ∈ g.edges, ∃ n ∈ g.nodes, n.id = e.source
  target_known : ∀ e ∈ g.edges, ∃ n ∈ g.nodes, n.id = e.target
  source_type : ∀ e ∈ g.edges, ∀ n ∈ g.nodes, n.id = e.source → n.type ≠ .finish
  target_type : ∀ e ∈ g.edges, ∀ n ∈ g.nodes, n.id = e.target → n.type ≠ .start
  targets_nodup : (g.edges.map Edge.target).Nodup

variable {g g' : Graph}

/-! ### Looking nodes up -/

lemma find?_of_mem (hnodup : (g.nodes.map Node.id).Nodup) {n : Node} (hn : n ∈ g.nodes) :
    g.find? n.id = some n := by
  cases hfind : g.find? n.id with
  | none => exact absurd rfl (find?_eq_none_iff.1 hfind n hn)
  | some m =>
    rw [List.inj_on_of_nodup_map hnodup (mem_of_find? hfind) hn (id_of_find? hfind)]

lemma not_find?_isNone_iff {id : String} :
    ¬(g.find? id).isNone = true ↔ ∃ n ∈ g.nodes, n.id = id := by
  simp [find?]

/-- Where no id stands for two nodes, the type of an id is that of the node it stands for. -/
lemma typeOf?_eq_iff (hnodup : (g.nodes.map Node.id).Nodup) {id : String} {t : NodeType} :
    g.typeOf? id = some t ↔ ∃ n ∈ g.nodes, n.id = id ∧ n.type = t := by
  rw [typeOf?, Option.map_eq_some_iff]
  constructor
  · rintro ⟨n, hn, htype⟩
    exact ⟨n, mem_of_find? hn, id_of_find? hn, htype⟩
  · rintro ⟨n, hn, rfl, htype⟩
    exact ⟨n, find?_of_mem hnodup hn, htype⟩

lemma typeOf?_ne_iff (hnodup : (g.nodes.map Node.id).Nodup) {id : String} {t : NodeType} :
    ¬g.typeOf? id = some t ↔ ∀ n ∈ g.nodes, n.id = id → n.type ≠ t := by
  rw [typeOf?_eq_iff hnodup]
  simp only [not_exists, not_and, ne_eq]

/-! ### The problems of broken rules -/

lemma repeated_eq_nil_iff {α : Type} [DecidableEq α] {earlier xs : List α} :
    repeated earlier xs = [] ↔ xs.Nodup ∧ ∀ x ∈ xs, x ∉ earlier := by
  induction xs generalizing earlier with
  | nil => simp [repeated]
  | cons x xs ih =>
    rw [repeated, List.nodup_cons]
    by_cases hx : x ∈ earlier
    · simp [hx]
    · rw [if_neg hx, ih]
      constructor
      · rintro ⟨hnodup, hnew⟩
        have hx' : x ∉ xs := fun hmem => hnew x hmem List.mem_cons_self
        refine ⟨⟨hx', hnodup⟩, List.forall_mem_cons.2 ⟨hx, fun y hy hmem => ?_⟩⟩
        exact hnew y hy (List.mem_cons_of_mem _ hmem)
      · rintro ⟨⟨hx', hnodup⟩, hnew⟩
        refine ⟨hnodup, fun y hy hmem => ?_⟩
        rcases List.mem_cons.1 hmem with rfl | hmem
        · exact hx' hy
        · exact hnew y (List.mem_cons_of_mem _ hy) hmem

lemma edgeProblems_eq_nil_iff (hnodup : (g.nodes.map Node.id).Nodup) {e : Edge} :
    g.edgeProblems e = [] ↔ (∃ n ∈ g.nodes, n.id = e.source) ∧ (∃ n ∈ g.nodes, n.id = e.target) ∧
      (∀ n ∈ g.nodes, n.id = e.source → n.type ≠ .finish) ∧
      ∀ n ∈ g.nodes, n.id = e.target → n.type ≠ .start := by
  have hif : ∀ (c : Prop) [Decidable c] (p : Problem), (if c then [p] else []) = [] ↔ ¬c := by
    intro c _ p
    split_ifs with h <;> simp [h]
  simp only [edgeProblems, List.append_eq_nil_iff, hif, not_find?_isNone_iff,
    typeOf?_ne_iff hnodup, and_assoc]

lemma inputProblems_eq_nil_iff : g.inputProblems = [] ↔ (g.edges.map Edge.target).Nodup := by
  rw [inputProblems, List.filterMap_eq_nil_iff, List.nodup_iff_count_le_one]
  refine ⟨fun h id => ?_, fun h id _ => by simp [h id]⟩
  by_cases hid : id ∈ g.edges.map Edge.target
  · simpa using h id (List.mem_eraseDups.2 hid)
  · simp [List.count_eq_zero.2 hid]

/-- The problems of broken rules. -/
def breaches (g : Graph) : List Problem :=
  (repeated [] (g.nodes.map Node.id)).map .duplicateNode
    ++ (repeated [] (g.edges.map fun e => (e.source, e.target))).map
      (fun pair => .duplicateEdge pair.1 pair.2)
    ++ g.edges.flatMap g.edgeProblems ++ g.inputProblems

lemma problems_eq (g : Graph) :
    g.problems = g.breaches ++ (g.endpointProblems ++ g.cycleProblems ++ g.reachProblems) := by
  simp only [problems, breaches, List.append_assoc]

/-- The rules are kept exactly if no problem tells of a broken one. -/
lemma breaches_eq_nil_iff : g.breaches = [] ↔ g.KeepsRules := by
  simp only [breaches, List.append_eq_nil_iff, List.map_eq_nil_iff, repeated_eq_nil_iff,
    List.not_mem_nil, not_false_eq_true, implies_true, and_true, List.flatMap_eq_nil_iff,
    inputProblems_eq_nil_iff]
  constructor
  · rintro ⟨⟨⟨hnodes, -⟩, hedges⟩, htargets⟩
    have hedge := fun e he => (edgeProblems_eq_nil_iff hnodes).1 (hedges e he)
    exact ⟨hnodes, fun e he => (hedge e he).1, fun e he => (hedge e he).2.1,
      fun e he => (hedge e he).2.2.1, fun e he => (hedge e he).2.2.2, htargets⟩
  · intro h
    -- two edges between the same nodes would lead to the same target
    have hpairs : (g.edges.map fun e => (e.source, e.target)).Nodup := by
      refine List.Nodup.of_map Prod.snd ?_
      rw [List.map_map]
      exact h.targets_nodup
    refine ⟨⟨⟨h.nodes_nodup, hpairs⟩, fun e he => ?_⟩, h.targets_nodup⟩
    exact (edgeProblems_eq_nil_iff h.nodes_nodup).2
      ⟨h.source_known e he, h.target_known e he, h.source_type e he, h.target_type e he⟩

/-- Each of the problems of broken rules tells of one. -/
lemma breaksRule_of_mem_breaches {p : Problem} (h : p ∈ g.breaches) : p.BreaksRule := by
  simp only [breaches, inputProblems, List.mem_append, List.mem_map, List.mem_flatMap,
    List.mem_filterMap] at h
  rcases h with ((⟨id, -, rfl⟩ | ⟨pair, -, rfl⟩) | ⟨e, -, he⟩) | ⟨id, -, hid⟩
  · trivial
  · trivial
  · simp only [edgeProblems, List.mem_append, List.mem_ite_nil_right, List.mem_singleton] at he
    rcases he with ((⟨-, rfl⟩ | ⟨-, rfl⟩) | ⟨-, rfl⟩) | ⟨-, rfl⟩ <;> trivial
  · split_ifs at hid
    obtain rfl := Option.some.inj hid
    trivial

lemma of_mem_endpointProblems {p : Problem} (h : p ∈ g.endpointProblems) :
    p = .noStart ∨ (∃ first ignored, p = .manyStarts first ignored) ∨ p = .noEnd := by
  rw [endpointProblems] at h
  rcases List.mem_append.1 h with h | h
  · split at h
    · exact .inl (List.mem_singleton.1 h)
    · cases h
    · exact .inr (.inl ⟨_, _, List.mem_singleton.1 h⟩)
  · split_ifs at h
    · cases h
    · exact .inr (.inr (List.mem_singleton.1 h))

lemma of_mem_cycleProblems {p : Problem} (h : p ∈ g.cycleProblems) :
    p = .tooManyCycles ∨ ∃ ids, p = .cycle ids := by
  rw [cycleProblems] at h
  split_ifs at h
  · rcases List.mem_append.1 h with h | h
    · obtain ⟨ids, -, rfl⟩ := List.mem_map.1 h
      exact .inr ⟨ids, rfl⟩
    · exact .inl (List.mem_singleton.1 h)
  · obtain ⟨ids, -, rfl⟩ := List.mem_map.1 h
    exact .inr ⟨ids, rfl⟩

lemma of_mem_reachProblems {p : Problem} (h : p ∈ g.reachProblems) : ∃ id, p = .unreachable id := by
  rw [reachProblems] at h
  split at h
  · cases h
  · obtain ⟨n, -, rfl⟩ := List.mem_map.1 h
    exact ⟨n.id, rfl⟩

/-- Of problems of other kinds than broken rules and missing ends, the last two groups tell. -/
lemma filter_problems {p : Problem → Bool} (hrules : ∀ q : Problem, q.BreaksRule → p q = false)
    (hnoStart : p .noStart = false)
    (hmanyStarts : ∀ first ignored, p (.manyStarts first ignored) = false)
    (hnoEnd : p .noEnd = false) :
    g.problems.filter p = g.cycleProblems.filter p ++ g.reachProblems.filter p := by
  have hbreaches : ∀ q ∈ g.breaches, ¬p q = true := by
    intro q hq
    rw [Bool.not_eq_true]
    exact hrules q (breaksRule_of_mem_breaches hq)
  have hendpoints : ∀ q ∈ g.endpointProblems, ¬p q = true := by
    intro q hq
    rw [Bool.not_eq_true]
    rcases of_mem_endpointProblems hq with rfl | ⟨first, ignored, rfl⟩ | rfl
    · exact hnoStart
    · exact hmanyStarts first ignored
    · exact hnoEnd
  simp only [problems_eq, List.filter_append, List.filter_eq_nil_iff.2 hbreaches,
    List.filter_eq_nil_iff.2 hendpoints, List.nil_append]

/-- Where the rules are kept, no problem tells of a broken one. -/
lemma KeepsRules.not_breaksRule (h : g.KeepsRules) {p : Problem} (hp : p ∈ g.problems) :
    ¬p.BreaksRule := by
  rw [problems_eq, breaches_eq_nil_iff.2 h, List.nil_append] at hp
  rcases List.mem_append.1 hp with hp | hp
  · rcases List.mem_append.1 hp with hp | hp
    · rcases of_mem_endpointProblems hp with rfl | ⟨first, ignored, rfl⟩ | rfl <;> exact not_false
    · rcases of_mem_cycleProblems hp with rfl | ⟨ids, rfl⟩ <;> exact not_false
  · obtain ⟨id, rfl⟩ := of_mem_reachProblems hp
    exact not_false

/-! ### Changes of a graph -/

lemma keepsRules_empty : ({} : Graph).KeepsRules :=
  ⟨List.nodup_nil, nofun, nofun, nofun, nofun, List.nodup_nil⟩

/-- The rules depend on the edges, and on the ids and the types of the nodes. -/
lemma KeepsRules.congr (h : g.KeepsRules) (hedges : g'.edges = g.edges)
    (hnodes : g'.nodes.map (fun n => (n.id, n.type)) = g.nodes.map fun n => (n.id, n.type)) :
    g'.KeepsRules := by
  have hids : g'.nodes.map Node.id = g.nodes.map Node.id := by
    have hfst := congrArg (List.map Prod.fst) hnodes
    rw [List.map_map, List.map_map] at hfst
    exact hfst
  have hmem : ∀ n ∈ g'.nodes, ∃ m ∈ g.nodes, m.id = n.id ∧ m.type = n.type := by
    intro n hn
    have : (n.id, n.type) ∈ g.nodes.map fun n => (n.id, n.type) :=
      hnodes ▸ List.mem_map_of_mem hn
    obtain ⟨m, hm, heq⟩ := List.mem_map.1 this
    exact ⟨m, hm, Prod.mk.inj heq⟩
  have hknown : ∀ id, (∃ n ∈ g.nodes, n.id = id) → ∃ n ∈ g'.nodes, n.id = id := by
    intro id hid
    rw [← List.mem_map, hids]
    exact List.mem_map.2 hid
  refine ⟨hids ▸ h.nodes_nodup, ?_, ?_, ?_, ?_, hedges ▸ h.targets_nodup⟩
  · exact fun e he => hknown _ (h.source_known e (hedges ▸ he))
  · exact fun e he => hknown _ (h.target_known e (hedges ▸ he))
  · intro e he n hn hid
    obtain ⟨m, hm, hid', htype⟩ := hmem n hn
    exact htype ▸ h.source_type e (hedges ▸ he) m hm (hid'.trans hid)
  · intro e he n hn hid
    obtain ⟨m, hm, hid', htype⟩ := hmem n hn
    exact htype ▸ h.target_type e (hedges ▸ he) m hm (hid'.trans hid)

/-- Fewer nodes and edges keep the rules, as long as the edges still join nodes that are there. -/
lemma KeepsRules.of_sublist (h : g.KeepsRules) (hnodes : g'.nodes.Sublist g.nodes)
    (hedges : g'.edges.Sublist g.edges)
    (hsource : ∀ e ∈ g'.edges, ∃ n ∈ g'.nodes, n.id = e.source)
    (htarget : ∀ e ∈ g'.edges, ∃ n ∈ g'.nodes, n.id = e.target) : g'.KeepsRules where
  nodes_nodup := (hnodes.map _).nodup h.nodes_nodup
  source_known := hsource
  target_known := htarget
  source_type e he n hn := h.source_type e (hedges.subset he) n (hnodes.subset hn)
  target_type e he n hn := h.target_type e (hedges.subset he) n (hnodes.subset hn)
  targets_nodup := (hedges.map _).nodup h.targets_nodup

/-- A node with an id of its own may be added. -/
lemma KeepsRules.addNode (h : g.KeepsRules) {n : Node} (hnew : ∀ m ∈ g.nodes, m.id ≠ n.id) :
    (g.addNode n).KeepsRules := by
  have hother : ∀ id, (∃ m ∈ g.nodes, m.id = id) → n.id ≠ id := by
    rintro id ⟨m, hm, rfl⟩
    exact (hnew m hm).symm
  have hknown : ∀ id, (∃ m ∈ g.nodes, m.id = id) → ∃ m ∈ (g.addNode n).nodes, m.id = id := by
    rintro id ⟨m, hm, rfl⟩
    exact ⟨m, List.mem_append_left _ hm, rfl⟩
  have hold : ∀ m ∈ (g.addNode n).nodes, m ∈ g.nodes ∨ m = n := by
    intro m hm
    exact (List.mem_append.1 hm).imp_right List.mem_singleton.1
  refine ⟨?_, fun e he => hknown _ (h.source_known e he),
    fun e he => hknown _ (h.target_known e he), fun e he m hm hid => ?_,
    fun e he m hm hid => ?_, h.targets_nodup⟩
  · rw [Graph.addNode, List.map_append, List.map_singleton, List.nodup_append]
    refine ⟨h.nodes_nodup, List.nodup_singleton _, fun a ha b hb => ?_⟩
    obtain ⟨m, hm, rfl⟩ := List.mem_map.1 ha
    rw [List.mem_singleton.1 hb]
    exact hnew m hm
  · rcases hold m hm with hm | rfl
    · exact h.source_type e he m hm hid
    · exact absurd hid (hother _ (h.source_known e he))
  · rcases hold m hm with hm | rfl
    · exact h.target_type e he m hm hid
    · exact absurd hid (hother _ (h.target_known e he))

lemma map_changeFirst {α : Type} (f : Node → α) {id : String} {change : Node → Node}
    {nodes : List Node} (h : ∀ n, nodes.find? (fun n => n.id = id) = some n → f (change n) = f n) :
    (changeFirst id change nodes).map f = nodes.map f := by
  induction nodes with
  | nil => rfl
  | cons n nodes ih =>
    rw [changeFirst]
    by_cases hn : n.id = id
    · rw [if_pos hn, List.map_cons, List.map_cons, h n (by simp [hn])]
    · rw [if_neg hn, List.map_cons, List.map_cons, ih fun m hm => h m (by simpa [hn] using hm)]

/-- A node may be changed, as long as it keeps its id and its type. -/
lemma KeepsRules.changeNode (h : g.KeepsRules) {id : String} {change : Node → Node}
    (hchange : ∀ n, g.find? id = some n → (change n).id = n.id ∧ (change n).type = n.type) :
    (g.changeNode id change).KeepsRules := by
  refine h.congr rfl (map_changeFirst _ fun n hn => ?_)
  exact Prod.ext (hchange n hn).1 (hchange n hn).2

/-- A node may be deleted together with its edges. -/
lemma KeepsRules.deleteNode (h : g.KeepsRules) (id : String) : (g.deleteNode id).KeepsRules := by
  have hkept : ∀ e ∈ (g.deleteNode id).edges, e ∈ g.edges ∧ e.source ≠ id ∧ e.target ≠ id := by
    intro e he
    simpa [Graph.deleteNode] using he
  have hstill : ∀ other, other ≠ id → (∃ n ∈ g.nodes, n.id = other) →
      ∃ n ∈ (g.deleteNode id).nodes, n.id = other := by
    rintro other hne ⟨n, hn, rfl⟩
    exact ⟨n, by simpa [Graph.deleteNode] using ⟨hn, hne⟩, rfl⟩
  refine h.of_sublist List.filter_sublist List.filter_sublist (fun e he => ?_) fun e he => ?_
  · obtain ⟨hmem, hsource, -⟩ := hkept e he
    exact hstill _ hsource (h.source_known e hmem)
  · obtain ⟨hmem, -, htarget⟩ := hkept e he
    exact hstill _ htarget (h.target_known e hmem)

/-- Edges may be removed. -/
lemma KeepsRules.removeEdge (h : g.KeepsRules) (id : String) : (g.removeEdge id).KeepsRules :=
  h.of_sublist (List.Sublist.refl _) List.filter_sublist
    (fun e he => h.source_known e (List.mem_of_mem_filter he))
    fun e he => h.target_known e (List.mem_of_mem_filter he)

/-- What an edge between two ids is admitted for. -/
lemma admits_iff {source target : String} :
    g.admits source target = true ↔ ∃ s t, g.find? source = some s ∧ g.find? target = some t ∧
      s.type ≠ .finish ∧ t.type ≠ .start ∧ ∀ e ∈ g.edges, e.target ≠ target := by
  rw [admits]
  split
  · next s t hs ht =>
    simp only [hs, ht, Option.some.injEq, exists_and_left, exists_eq_left', Bool.and_eq_true,
      Bool.not_eq_true', List.any_eq_false, decide_eq_true_eq, ne_eq, and_assoc]
    refine ⟨fun h => h.2, fun h => ⟨fun e he hpair => h.2.2 e he hpair.2, h⟩⟩
  · next hnone =>
    simp only [Bool.false_eq_true, false_iff]
    rintro ⟨s, t, hs, ht, -⟩
    exact hnone s t hs ht

/-- An edge that is admitted may be added. -/
lemma KeepsRules.addEdge (h : g.KeepsRules) {e : Edge}
    (hadmits : g.admits e.source e.target = true) : (g.addEdge e).KeepsRules := by
  obtain ⟨s, t, hs, ht, hsource, htarget, hfree⟩ := admits_iff.1 hadmits
  have hids : s.id = e.source ∧ t.id = e.target := ⟨id_of_find? hs, id_of_find? ht⟩
  have hmem : s ∈ g.nodes ∧ t ∈ g.nodes := ⟨mem_of_find? hs, mem_of_find? ht⟩
  have hsame : ∀ n ∈ g.nodes, ∀ m ∈ g.nodes, n.id = m.id → n = m := fun n hn m hm =>
    List.inj_on_of_nodup_map h.nodes_nodup hn hm
  have hold : ∀ e' ∈ (g.addEdge e).edges, e' ∈ g.edges ∨ e' = e := by
    intro e' he'
    exact (List.mem_append.1 he').imp_right List.mem_singleton.1
  refine ⟨h.nodes_nodup, fun e' he' => ?_, fun e' he' => ?_, fun e' he' n hn hid => ?_,
    fun e' he' n hn hid => ?_, ?_⟩
  · rcases hold e' he' with he' | rfl
    · exact h.source_known e' he'
    · exact ⟨s, hmem.1, hids.1⟩
  · rcases hold e' he' with he' | rfl
    · exact h.target_known e' he'
    · exact ⟨t, hmem.2, hids.2⟩
  · rcases hold e' he' with he' | rfl
    · exact h.source_type e' he' n hn hid
    · rw [hsame n hn s hmem.1 (hid.trans hids.1.symm)]
      exact hsource
  · rcases hold e' he' with he' | rfl
    · exact h.target_type e' he' n hn hid
    · rw [hsame n hn t hmem.2 (hid.trans hids.2.symm)]
      exact htarget
  · rw [Graph.addEdge, List.map_append, List.map_singleton, List.nodup_append]
    refine ⟨h.targets_nodup, List.nodup_singleton _, fun a ha b hb => ?_⟩
    obtain ⟨e', he', rfl⟩ := List.mem_map.1 ha
    rw [List.mem_singleton.1 hb]
    exact hfree e' he'

end Graph

end Workflow
