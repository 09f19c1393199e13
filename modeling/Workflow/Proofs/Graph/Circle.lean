import Workflow.Graph.Problem
import Workflow.Proofs.Graph.Cycle

/-!
# Cycles are found

An id is on a cycle if steps lead from it back to itself. Where there is such an id the search for
cycles finds one, so that a graph with a cycle among its known nodes always has the problem that
tells of it.
-/

namespace Workflow

/-- Steps lead from an id back to itself, each of them to one of the given ids. -/
def Circles (next : String → List String) (ids : List String) (id : String) : Prop :=
  Relation.TransGen (fun a b => b ∈ next a ∧ b ∈ ids) id id

section Search

variable {next : String → List String} {ids others through : List String}
  {a b root current : String}

lemma upTo_ne_nil {α β : Type} {limit : Nat} {items : Nat → α → List β} {as : List α} {a : α}
    (ha : a ∈ as) (hlimit : 0 < limit) (h : ∀ bound, 0 < bound → items bound a ≠ []) :
    upTo limit items as ≠ [] := by
  induction as with
  | nil => cases ha
  | cons b as ih =>
    intro hnil
    rw [upTo, if_neg (by omega)] at hnil
    obtain ⟨hfound, hlater⟩ := List.append_eq_nil_iff.1 hnil
    rcases List.mem_cons.1 ha with rfl | ha
    · exact h limit hlimit hfound
    · rw [hfound] at hlater
      exact ih ha hlater

/-- A step from an id by which the root can be reached, through ids that may still be passed. -/
def HasWayBack (next : String → List String) (root : String) (through : List String)
    (current : String) : Prop :=
  ∃ id ∈ next current, id = root ∨ id ∈ through ∧ leadsTo next root through id = true

/-- From an id by which the root can be reached, it can be reached without passing that id again. -/
lemma HasWayBack.of_leadsTo (hne : current ≠ root)
    (h : leadsTo next root through current = true) :
    HasWayBack next root (through.erase current) current := by
  obtain ⟨-, hway⟩ := leadsTo_iff.1 h
  have herase : (root :: through).erase current = root :: through.erase current :=
    List.erase_cons_tail (by simpa using hne.symm)
  rcases hway.avoid current with heq | ⟨id, hid, hmem, hrest⟩ | ⟨hself, -⟩
  · exact absurd heq.symm hne
  · rw [herase] at hmem hrest
    refine ⟨id, hid, ?_⟩
    rcases List.mem_cons.1 hmem with rfl | hthrough
    · exact .inl rfl
    · exact .inr ⟨hthrough, leadsTo_iff.2 ⟨hmem, hrest⟩⟩
  · exact absurd rfl hself

/-- Where there is a way back, the search finds one, by induction on the ids it may pass. -/
lemma HasWayBack.waysBack_ne_nil {depth limit : Nat} (h : HasWayBack next root through current)
    (hdepth : through.length ≤ depth) (hlimit : 0 < limit) :
    waysBack next root depth through current limit ≠ [] := by
  induction depth generalizing through current limit with
  | zero =>
    obtain ⟨id, hid, rfl | ⟨hthrough, -⟩⟩ := h
    · rw [waysBack]
      exact upTo_ne_nil (List.mem_eraseDups.2 hid) hlimit fun _ _ => by simp
    · rw [List.length_eq_zero_iff.1 (Nat.le_zero.1 hdepth)] at hthrough
      cases hthrough
  | succ depth ih =>
    obtain ⟨id, hid, hway⟩ := h
    rw [waysBack]
    refine upTo_ne_nil (List.mem_eraseDups.2 hid) hlimit fun bound hbound => ?_
    by_cases hroot : id = root
    · simp [hroot]
    · obtain ⟨hthrough, hleads⟩ := hway.resolve_left hroot
      have hlength := List.length_erase_of_mem hthrough
      rw [if_neg hroot]
      simp only [hthrough, hleads, and_self, if_true, ne_eq, List.map_eq_nil_iff]
      exact ih (.of_leadsTo hroot hleads) (by omega) hbound

/-- A way of one step at least passes the root, or keeps to the other ids. -/
lemma avoids_or_passes (h : Relation.TransGen (fun a b => b ∈ next a ∧ b ∈ root :: others) a b) :
    Relation.TransGen (fun a b => b ∈ next a ∧ b ∈ others) a b ∨
      Within next (root :: others) a root ∧ Within next (root :: others) root b := by
  induction h with
  | single hstep =>
    rcases List.mem_cons.1 hstep.2 with rfl | hother
    · exact .inr ⟨.single hstep, .refl⟩
    · exact .inl (.single ⟨hstep.1, hother⟩)
  | tail hway hstep ih =>
    rcases List.mem_cons.1 hstep.2 with rfl | hother
    · exact .inr ⟨hway.to_reflTransGen.tail hstep, .refl⟩
    · rcases ih with havoids | ⟨hto, hfrom⟩
      · exact .inl (havoids.tail ⟨hstep.1, hother⟩)
      · exact .inr ⟨hto, hfrom.tail hstep⟩

/-- A cycle passes the root, or keeps to the other ids. -/
lemma Circles.root_or_others (h : Circles next (root :: others) a) :
    Circles next (root :: others) root ∨ Circles next others a := by
  rcases avoids_or_passes h with havoids | ⟨hto, hfrom⟩
  · exact .inr havoids
  · exact .inl (Relation.TransGen.trans_right hfrom (h.trans_left hto))

lemma Circles.hasWayBack (h : Circles next (root :: others) root) :
    HasWayBack next root others root := by
  obtain ⟨id, ⟨hid, hmem⟩, hway⟩ := Relation.TransGen.head'_iff.1 h
  refine ⟨id, hid, ?_⟩
  rcases List.mem_cons.1 hmem with rfl | hother
  · exact .inl rfl
  · exact .inr ⟨hother, leadsTo_iff.2 ⟨hmem, hway⟩⟩

/-- Where some id is on a cycle, the search for cycles finds one. -/
lemma Circles.cyclesWithin_ne_nil {limit : Nat} (h : Circles next ids a) (hlimit : 0 < limit) :
    cyclesWithin next limit ids ≠ [] := by
  induction ids with
  | nil =>
    obtain ⟨id, ⟨-, hmem⟩, -⟩ := Relation.TransGen.head'_iff.1 h
    cases hmem
  | cons root others ih =>
    intro hnil
    rw [cyclesWithin] at hnil
    obtain ⟨hfound, hlater⟩ := List.append_eq_nil_iff.1 hnil
    rcases h.root_or_others with hroot | hothers
    · exact hroot.hasWayBack.waysBack_ne_nil le_rfl hlimit hfound
    · rw [hfound] at hlater
      exact ih hothers hlater

end Search

namespace Graph

variable {g : Graph} {id : String}

/-- An id is on a cycle of known nodes. -/
def Circles (g : Graph) (id : String) : Prop :=
  Workflow.Circles g.targets g.ids id

lemma Circles.leadsTo (h : g.Circles id) : g.LeadsTo id id :=
  Relation.TransGen.mono (fun _ _ hstep => hstep.1) _ _ h

/-- A graph with a cycle has a problem that tells of a cycle. -/
lemma Circles.exists_problem (h : g.Circles id) : ∃ ids, Problem.cycle ids ∈ g.problems := by
  obtain ⟨first, others, hfound⟩ : ∃ first others, g.cycles (maxCycles + 1) = first :: others := by
    refine List.exists_cons_of_ne_nil fun hnil => ?_
    have hlength := congrArg List.length hnil
    rw [cycles, List.length_mergeSort, List.length_map, List.length_nil,
      List.length_eq_zero_iff] at hlength
    exact h.cyclesWithin_ne_nil (Nat.succ_pos _) hlength
  refine ⟨first, ?_⟩
  have hmem : Problem.cycle first ∈ g.cycleProblems := by
    rw [cycleProblems, hfound]
    split_ifs
    · exact List.mem_append_left _ (List.mem_map_of_mem List.mem_cons_self)
    · exact List.mem_map_of_mem List.mem_cons_self
  simp only [problems, List.mem_append]
  exact .inl (.inr hmem)

end Graph

end Workflow
