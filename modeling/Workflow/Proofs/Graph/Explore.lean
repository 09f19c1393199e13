import Workflow.Proofs.Graph.Reach

/-!
# What an exploration lists

An exploration lists exactly the ids that can be reached from its agenda without leaving the unseen
ids. In a graph whose edges lead to known nodes only, the reachable nodes are then those that its
edges reach.
-/

namespace Workflow

/-- Steps lead from one id to another, each of them to one of the given ids. -/
def Within (next : String → List String) (ids : List String) : String → String → Prop :=
  Relation.ReflTransGen fun a b => b ∈ next a ∧ b ∈ ids

section Explore

variable {next : String → List String} {ids ids' agenda : List String} {a b root : String}

lemma Within.mono (h : Within next ids a b) (hsub : ids ⊆ ids') : Within next ids' a b :=
  Relation.ReflTransGen.mono (fun _ _ hstep => ⟨hstep.1, hsub hstep.2⟩) _ _ h

/-- Whatever lies on the way from an id, it may be left from another id for the last time. -/
lemma Within.avoid (h : Within next ids a b) (root : String) :
    b = root ∨ (∃ c ∈ next root, c ∈ ids.erase root ∧ Within next (ids.erase root) c b) ∨
      (a ≠ root ∧ Within next (ids.erase root) a b) := by
  induction h with
  | refl =>
    by_cases ha : a = root
    · exact .inl ha
    · exact .inr (.inr ⟨ha, .refl⟩)
  | @tail b c _ hstep ih =>
    by_cases hc : c = root
    · exact .inl hc
    · have hc' : c ∈ ids.erase root := (List.mem_erase_of_ne hc).2 hstep.2
      have hlast : c ∈ next b ∧ c ∈ ids.erase root := ⟨hstep.1, hc'⟩
      rcases ih with rfl | ⟨d, hd, hd', hway⟩ | ⟨ha, hway⟩
      · exact .inr (.inl ⟨c, hstep.1, hc', .refl⟩)
      · exact .inr (.inl ⟨d, hd, hd', hway.tail hlast⟩)
      · exact .inr (.inr ⟨ha, hway.tail hlast⟩)

lemma explore_cons_of_mem (h : a ∈ ids) :
    explore next ids (a :: agenda) = a :: explore next (ids.erase a) (next a ++ agenda) := by
  rw [explore, if_pos h]

lemma explore_cons_of_not_mem (h : a ∉ ids) :
    explore next ids (a :: agenda) = explore next ids agenda := by
  rw [explore, if_neg h]

/-- An exploration lists what can be reached from an unseen id of its agenda. -/
lemma mem_explore_iff :
    b ∈ explore next ids agenda ↔ ∃ a ∈ agenda, a ∈ ids ∧ Within next ids a b := by
  induction ids, agenda using explore.induct next with
  | case1 ids => simp [explore]
  | case2 ids a agenda ha ih =>
    rw [explore_cons_of_mem ha, List.mem_cons, ih]
    have hsub : ids.erase a ⊆ ids := List.erase_subset
    constructor
    · rintro (rfl | ⟨c, hc, hc', hway⟩)
      · exact ⟨b, List.mem_cons_self, ha, .refl⟩
      · rcases List.mem_append.1 hc with hc | hc
        · exact ⟨a, List.mem_cons_self, ha, .head ⟨hc, hsub hc'⟩ (hway.mono hsub)⟩
        · exact ⟨c, List.mem_cons_of_mem _ hc, hsub hc', hway.mono hsub⟩
    · rintro ⟨c, hc, hc', hway⟩
      rcases hway.avoid a with rfl | ⟨d, hd, hd', hway'⟩ | ⟨hne, hway'⟩
      · exact .inl rfl
      · exact .inr ⟨d, List.mem_append_left _ hd, hd', hway'⟩
      · have hmem : c ∈ agenda := (List.mem_cons.1 hc).resolve_left hne
        exact .inr ⟨c, List.mem_append_right _ hmem, (List.mem_erase_of_ne hne).2 hc', hway'⟩
  | case3 ids a agenda ha ih =>
    rw [explore_cons_of_not_mem ha, ih]
    constructor
    · rintro ⟨c, hc, hc', hway⟩
      exact ⟨c, List.mem_cons_of_mem _ hc, hc', hway⟩
    · rintro ⟨c, hc, hc', hway⟩
      rcases List.mem_cons.1 hc with rfl | hc
      · exact absurd hc' ha
      · exact ⟨c, hc, hc', hway⟩

end Explore

namespace Graph

variable {g : Graph} {root id : String}

lemma mem_ids : id ∈ g.ids ↔ ∃ n ∈ g.nodes, n.id = id := by
  simp [ids]

/-- The reachable nodes are those to which a way leads from a known id through known ids. -/
lemma mem_reachable_iff :
    id ∈ g.reachable root ↔ root ∈ g.ids ∧ Within g.targets g.ids root id := by
  simp [reachable, mem_explore_iff]

/--
If the edges that a known id reaches lead to known nodes, it reaches by edges what it reaches
through known nodes.
-/
lemma mem_reachable_iff_reaches (hroot : root ∈ g.ids)
    (hknown : ∀ e ∈ g.edges, g.Reaches root e.source → e.target ∈ g.ids) :
    id ∈ g.reachable root ↔ g.Reaches root id := by
  rw [mem_reachable_iff]
  constructor
  · rintro ⟨-, hway⟩
    exact Relation.ReflTransGen.mono (fun _ _ hstep => hstep.1) _ _ hway
  · intro hreaches
    refine ⟨hroot, ?_⟩
    induction hreaches with
    | refl => exact .refl
    | tail hway hstep ih =>
      obtain ⟨e, he, rfl, rfl⟩ := mem_targets.1 hstep
      exact ih.tail ⟨hstep, hknown e he hway⟩

end Graph

end Workflow
