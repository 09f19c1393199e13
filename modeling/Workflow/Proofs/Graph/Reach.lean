import Mathlib.Data.List.Count
import Mathlib.Logic.Relation
import Mathlib.Tactic
import Workflow.Graph.Reach

/-!
# Paths along edges

Reachability as a relation between ids. An edge leads on from any id it names as its source, be
there a node of that id or not.
-/

namespace Workflow.Graph

variable {g : Graph}

lemma mem_targets {source target : String} :
    target ∈ g.targets source ↔ ∃ e ∈ g.edges, e.source = source ∧ e.target = target := by
  simp [targets, edgesFrom, and_assoc]

/-- Edges lead from one id to another, in any number of steps. -/
def Reaches (g : Graph) : String → String → Prop :=
  Relation.ReflTransGen fun source target => target ∈ g.targets source

lemma Reaches.refl (id : String) : g.Reaches id id :=
  Relation.ReflTransGen.refl

lemma Reaches.target {root : String} {e : Edge} (h : g.Reaches root e.source) (he : e ∈ g.edges) :
    g.Reaches root e.target :=
  Relation.ReflTransGen.tail h (mem_targets.2 ⟨e, he, rfl, rfl⟩)

lemma Reaches.trans {a b c : String} (h : g.Reaches a b) (h' : g.Reaches b c) : g.Reaches a c :=
  Relation.ReflTransGen.trans h h'

/-- Ids that hold the root and all targets of theirs hold whatever the root reaches. -/
lemma Reaches.mem_of_closed {root id : String} {ids : List String} (hroot : root ∈ ids)
    (hclosed : ∀ e ∈ g.edges, e.source ∈ ids → e.target ∈ ids) (h : g.Reaches root id) :
    id ∈ ids := by
  induction h with
  | refl => exact hroot
  | tail _ hstep ih =>
    obtain ⟨e, he, rfl, rfl⟩ := mem_targets.1 hstep
    exact hclosed e he ih

/-- Edges lead from one id to another, in one step at least. -/
def LeadsTo (g : Graph) : String → String → Prop :=
  Relation.TransGen fun source target => target ∈ g.targets source

/-- The last step to an id is an edge. -/
lemma LeadsTo.last {a b : String} (h : g.LeadsTo a b) :
    ∃ e ∈ g.edges, g.Reaches a e.source ∧ e.target = b := by
  obtain ⟨c, hway, hstep⟩ := Relation.TransGen.tail'_iff.1 h
  obtain ⟨e, he, rfl, rfl⟩ := mem_targets.1 hstep
  exact ⟨e, he, hway, rfl⟩

/-- The first step from an id is an edge. -/
lemma LeadsTo.first {a b : String} (h : g.LeadsTo a b) : ∃ e ∈ g.edges, e.source = a := by
  obtain ⟨c, hstep, -⟩ := Relation.TransGen.head'_iff.1 h
  obtain ⟨e, he, hsource, -⟩ := mem_targets.1 hstep
  exact ⟨e, he, hsource⟩

/-! ### Counting edges -/

lemma count_map_target (g : Graph) (id : String) :
    (g.edges.map Edge.target).count id = g.edges.countP fun e => e.target = id := by
  rw [List.count, List.countP_map]
  exact List.countP_congr fun _ _ => by simp

lemma count_targets (source id : String) :
    (g.targets source).count id = g.edges.countP fun e => e.source = source ∧ e.target = id := by
  rw [targets, edgesFrom, List.count, List.countP_map, List.countP_filter]
  apply List.countP_congr
  intro e _
  simp [and_comm]

/-- Ids that are given once count each edge that leaves one of them once. -/
lemma count_flatMap_targets {ids : List String} (hnodup : ids.Nodup) (id : String) :
    (ids.flatMap g.targets).count id
      = g.edges.countP fun e => e.source ∈ ids ∧ e.target = id := by
  induction ids with
  | nil => simp
  | cons source ids ih =>
    obtain ⟨hsource, hnodup⟩ := List.nodup_cons.1 hnodup
    rw [List.flatMap_cons, List.count_append, count_targets, ih hnodup]
    generalize g.edges = edges
    induction edges with
    | nil => rfl
    | cons e edges ihe =>
      simp only [List.countP_cons, ← ihe]
      -- no edge is counted on both sides, as `source` is not among `ids`
      by_cases hs : e.source = source
      · have : e.source ∉ ids := hs ▸ hsource
        simp only [hs, true_and, List.mem_cons, true_or]
        simp only [← hs, this, false_and, decide_false]
        simp only [Bool.false_eq_true, if_false]
        omega
      · simp only [hs, List.mem_cons, false_and, false_or, decide_false]
        simp only [Bool.false_eq_true, if_false]
        omega

end Workflow.Graph
