import Workflow.Proofs.Graph.Reach
import Workflow.Proofs.Graph.Rules

/-!
# Trees in a graph

What a root reaches is a tree if exactly one edge leads to everything but the root. A tree has no
cycle, and in a graph that keeps the rules each start node is the root of one.
-/

namespace Workflow

open Classical in
/-- How many edges lead from ids that the root reaches to an id, parallel ones each for itself. -/
noncomputable def Graph.inputs (g : Graph) (root id : String) : Nat :=
  g.edges.countP fun e => g.Reaches root e.source ∧ e.target = id

/-- What the root reaches is a tree, in which no edge leads to an unknown node. -/
structure Graph.IsTree (g : Graph) (root : String) : Prop where
  known : ∀ e ∈ g.edges, g.Reaches root e.source → ∃ n ∈ g.nodes, n.id = e.target
  inputs_eq_one : ∀ id, g.Reaches root id → id ≠ root → g.inputs root id = 1
  inputs_root : g.inputs root root = 0

section Tree

variable {g : Graph} {root id : String}

lemma eq_of_countP_eq_one {α : Type} {p : α → Bool} {xs : List α} (h : xs.countP p = 1)
    {x y : α} (hx : x ∈ xs) (hy : y ∈ xs) (hpx : p x) (hpy : p y) : x = y := by
  rw [List.countP_eq_length_filter, List.length_eq_one_iff] at h
  obtain ⟨z, hz⟩ := h
  have hx' : x ∈ xs.filter p := List.mem_filter.2 ⟨hx, hpx⟩
  have hy' : y ∈ xs.filter p := List.mem_filter.2 ⟨hy, hpy⟩
  rw [hz, List.mem_singleton] at hx' hy'
  rw [hx', hy']

/-- No edge that the root of a tree reaches leads back to it. -/
lemma Graph.IsTree.target_ne_root (h : g.IsTree root) {e : Edge} (he : e ∈ g.edges)
    (hsource : g.Reaches root e.source) : e.target ≠ root := by
  intro heq
  have hnone := List.countP_eq_zero.1 h.inputs_root e he
  simp [hsource, heq] at hnone

/-- In a tree two edges to one id are one edge. -/
lemma Graph.IsTree.edge_unique (h : g.IsTree root) {e e' : Edge} (he : e ∈ g.edges)
    (he' : e' ∈ g.edges) (hsource : g.Reaches root e.source) (hsource' : g.Reaches root e'.source)
    (htarget : e'.target = e.target) : e' = e := by
  have hone : g.inputs root e.target = 1 :=
    h.inputs_eq_one _ (hsource.target he) (h.target_ne_root he hsource)
  exact eq_of_countP_eq_one hone he' he (by simp [hsource', htarget]) (by simp [hsource])

/-! ### Cycles -/

/-- In a tree nothing leads back to itself, by induction along the way from the root. -/
lemma Graph.IsTree.not_leadsTo_self (h : g.IsTree root) (hreach : g.Reaches root id) :
    ¬g.LeadsTo id id := by
  induction hreach with
  | refl =>
    intro hback
    obtain ⟨e, he, hsource, htarget⟩ := hback.last
    exact h.target_ne_root he hsource htarget
  | @tail parent child hparent hstep ih =>
    intro hback
    obtain ⟨e, he, rfl, rfl⟩ := Graph.mem_targets.1 hstep
    obtain ⟨e', he', hway, htarget⟩ := hback.last
    -- the way back ends in the only edge there is, so that the parent leads back to itself too
    have hsource' : g.Reaches root e'.source := (Graph.Reaches.target hparent he).trans hway
    obtain rfl := h.edge_unique he he' hparent hsource' htarget
    exact ih (Relation.TransGen.head' hstep hway)

/-! ### Trees by the rules -/

/-- In a graph that keeps the rules, each start node is the root of a tree. -/
lemma Graph.KeepsRules.isTree (h : g.KeepsRules) {start : Node} (hstart : start ∈ g.nodes)
    (htype : start.type = .start) : g.IsTree start.id where
  known e he _ := h.target_known e he
  inputs_eq_one id hid hne := by
    have hle : g.inputs start.id id ≤ (g.edges.map Edge.target).count id := by
      rw [Graph.count_map_target, Graph.inputs]
      exact List.countP_mono_left fun e _ he => by simp_all
    have hone := List.nodup_iff_count_le_one.1 h.targets_nodup id
    obtain hid | ⟨parent, hparent, hstep⟩ := Relation.ReflTransGen.cases_tail hid
    · exact absurd hid hne
    · obtain ⟨e, he, rfl, rfl⟩ := Graph.mem_targets.1 hstep
      have hpos : 0 < g.inputs start.id e.target :=
        List.countP_pos_iff.2 ⟨e, he, by simp [show g.Reaches start.id e.source from hparent]⟩
      omega
  inputs_root := by
    refine List.countP_eq_zero.2 fun e he => ?_
    have hne : e.target ≠ start.id := fun heq => h.target_type e he start hstart heq.symm htype
    simp [hne]

end Tree

end Workflow
