import Mathlib.Data.List.Chain
import Workflow.Graph.Cycle
import Workflow.Proofs.Graph.Explore

/-!
# What a search for cycles finds

A search for cycles that has no limit finds every simple cycle through the given ids, that is every
way round that passes no id twice, and finds it once: begun at the first of its ids. A search with a
limit finds the first of these, up to its limit. So it finds nothing where no id leads back to
itself.
-/

namespace Workflow

/-- Some ids in a row, each of which leads to the one after it, and the last of which to another. -/
def LeadsBack (next : String → List String) (way : List String) (root : String) : Prop :=
  (way ++ [root]).IsChain fun a b => b ∈ next a

/-- Some of the given ids in a row, none twice, that lead from the first one back to it. -/
structure IsCycle (next : String → List String) (ids cycle : List String) : Prop where
  nodup : cycle.Nodup
  subset : cycle ⊆ ids
  closed : ∃ root rest, cycle = root :: rest ∧ LeadsBack next cycle root

lemma leadsBack_singleton {next : String → List String} {current root : String} :
    LeadsBack next [current] root ↔ root ∈ next current := by
  simp [LeadsBack]

lemma leadsBack_cons_cons {next : String → List String} {current id root : String}
    {way : List String} :
    LeadsBack next (current :: id :: way) root
      ↔ id ∈ next current ∧ LeadsBack next (id :: way) root := by
  rw [LeadsBack, List.cons_append, List.cons_append, List.isChain_cons_cons]
  rfl

/-! ### Searches without a limit -/

/-- All the simple ways from `current` back to `root` that pass only through the given other ids. -/
def allWays (next : String → List String) (root : String) (through : List String)
    (current : String) : List (List String) :=
  (next current).eraseDups.flatMap fun id =>
    if id = root then [[current]]
    else if id ∈ through then (allWays next root (through.erase id) id).map (current :: ·)
    else []
termination_by through.length
decreasing_by
  rename_i h
  have := List.length_erase_of_mem h
  have := List.length_pos_of_mem h
  omega

/-- All the simple cycles through the given ids; each begins at the first of its ids here. -/
def allCycles (next : String → List String) : List String → List (List String)
  | [] => []
  | root :: others => allWays next root others root ++ allCycles next others

lemma nodup_eraseDups (ids : List String) : ids.eraseDups.Nodup := by
  induction hn : ids.length using Nat.strong_induction_on generalizing ids with
  | h n ih =>
    cases ids with
    | nil => exact List.nodup_nil
    | cons id ids =>
      rw [List.eraseDups_cons, List.nodup_cons]
      have hle := List.length_filter_le (fun other => !other == id) ids
      rw [List.length_cons] at hn
      exact ⟨by simp, ih _ (by omega) _ rfl⟩

section Search

variable {next : String → List String} {ids through way rest : List String}
  {root current : String}

/-- Ids in a row that lead back to the root lead the first of them to the root, along the others. -/
lemma LeadsBack.transGen (h : LeadsBack next (current :: rest) root) :
    Relation.TransGen (fun a b => b ∈ next a ∧ b ∈ root :: rest) current root := by
  induction rest generalizing current with
  | nil => exact .single ⟨leadsBack_singleton.1 h, List.mem_cons_self⟩
  | cons id rest ih =>
    obtain ⟨hstep, hback⟩ := leadsBack_cons_cons.1 h
    have hsub : root :: rest ⊆ root :: id :: rest :=
      List.cons_subset_cons _ (List.subset_cons_self _ _)
    refine .head ⟨hstep, by simp⟩ (Relation.TransGen.mono (fun _ _ hab => ?_) _ _ (ih hback))
    exact ⟨hab.1, hsub hab.2⟩

/-- A way back ends with a step to the root, or goes on with a step to an id that it may pass. -/
lemma mem_allWays_iff_step :
    way ∈ allWays next root through current ↔
      (root ∈ next current ∧ way = [current]) ∨
        ∃ id ∈ next current, id ≠ root ∧ id ∈ through ∧
          ∃ rest ∈ allWays next root (through.erase id) id, way = current :: rest := by
  rw [allWays, List.mem_flatMap]
  constructor
  · rintro ⟨id, hid, hway⟩
    rw [List.mem_eraseDups] at hid
    split_ifs at hway with hroot hthrough
    · exact .inl ⟨hroot ▸ hid, List.mem_singleton.1 hway⟩
    · obtain ⟨rest, hrest, rfl⟩ := List.mem_map.1 hway
      exact .inr ⟨id, hid, hroot, hthrough, rest, hrest, rfl⟩
    · cases hway
  · rintro (⟨hroot, rfl⟩ | ⟨id, hid, hroot, hthrough, rest, hrest, rfl⟩)
    · exact ⟨root, List.mem_eraseDups.2 hroot, by simp⟩
    · refine ⟨id, List.mem_eraseDups.2 hid, ?_⟩
      rw [if_neg hroot, if_pos hthrough]
      exact List.mem_map_of_mem hrest

/-- The search without a limit finds exactly the simple ways from where it stands to the root. -/
lemma mem_allWays_iff (hnodup : through.Nodup) (hroot : root ∉ through) :
    way ∈ allWays next root through current ↔
      ∃ rest, way = current :: rest ∧ rest.Nodup ∧ rest ⊆ through ∧ LeadsBack next way root := by
  induction through, current using allWays.induct generalizing way with
  | case1 through current ih =>
    have herase : ∀ id, root ∉ through.erase id := fun _ hmem =>
      hroot (List.mem_of_mem_erase hmem)
    rw [mem_allWays_iff_step]
    constructor
    · rintro (⟨hstep, rfl⟩ | ⟨id, hstep, hne, hid, rest, hrest, rfl⟩)
      · exact ⟨[], rfl, List.nodup_nil, List.nil_subset _, leadsBack_singleton.2 hstep⟩
      · obtain ⟨others, rfl, hothers, hsub, hback⟩ :=
          (ih id hid (hnodup.erase id) (herase id)).1 hrest
        have hnew : id ∉ others := fun hmem => hnodup.not_mem_erase (hsub hmem)
        exact ⟨id :: others, rfl, List.nodup_cons.2 ⟨hnew, hothers⟩,
          List.cons_subset.2 ⟨hid, fun a ha => List.erase_subset (hsub ha)⟩,
          leadsBack_cons_cons.2 ⟨hstep, hback⟩⟩
    · rintro ⟨rest, rfl, hrest, hsub, hback⟩
      cases rest with
      | nil => exact .inl ⟨leadsBack_singleton.1 hback, rfl⟩
      | cons id others =>
        obtain ⟨hid, hsub⟩ := List.cons_subset.1 hsub
        obtain ⟨hnew, hothers⟩ := List.nodup_cons.1 hrest
        obtain ⟨hstep, hback⟩ := leadsBack_cons_cons.1 hback
        have hne : id ≠ root := fun heq => hroot (heq ▸ hid)
        have hsub' : others ⊆ through.erase id := fun a ha =>
          (List.mem_erase_of_ne fun (heq : a = id) => hnew (heq ▸ ha)).2 (hsub ha)
        have hway := (ih id hid (hnodup.erase id) (herase id)).2
          ⟨others, rfl, hothers, hsub', hback⟩
        exact .inr ⟨id, hstep, hne, hid, id :: others, hway, rfl⟩

/-- The second id of a way, if it has one, says by which step the way was found. -/
lemma head?_tail_of_mem {id : String}
    (h : way ∈ if id = root then [[current]]
      else if id ∈ through then (allWays next root (through.erase id) id).map (current :: ·)
      else []) : way.tail.head? = if id = root then none else some id := by
  split_ifs at h ⊢ with hroot hthrough
  · rw [List.mem_singleton.1 h]
    rfl
  · obtain ⟨rest, hrest, rfl⟩ := List.mem_map.1 h
    rcases mem_allWays_iff_step.1 hrest with ⟨-, rfl⟩ | ⟨_, -, -, -, _, -, rfl⟩ <;> rfl
  · cases h

/-- No way is found twice: two ways part where the searches for them took different steps. -/
lemma nodup_allWays (next : String → List String) (root : String) (through : List String)
    (current : String) : (allWays next root through current).Nodup := by
  induction through, current using allWays.induct with
  | case1 through current ih =>
    rw [allWays, List.nodup_flatMap]
    refine ⟨fun id _ => ?_, (nodup_eraseDups _).pairwise_of_forall_ne
      fun a _ b _ hab way ha hb => ?_⟩
    · split_ifs with hroot hthrough
      · exact List.nodup_singleton _
      · exact (ih id hthrough).map List.cons_injective
      · exact List.nodup_nil
    · have heq := (head?_tail_of_mem ha).symm.trans (head?_tail_of_mem hb)
      split_ifs at heq with hroot hroot' hroot'
      · exact hab (hroot.trans hroot'.symm)
      · exact hab (Option.some.inj heq)

/-! ### Searches with a limit -/

/-- Searches that each find the first of some items, up to the limit, do so one after the other. -/
lemma upTo_eq_take {α β : Type} {items : Nat → α → List β} {all : α → List β} {as : List α}
    (h : ∀ a ∈ as, ∀ limit, 0 < limit → items limit a = (all a).take limit) (limit : Nat) :
    upTo limit items as = (as.flatMap all).take limit := by
  induction as generalizing limit with
  | nil => simp [upTo]
  | cons a as ih =>
    rw [upTo, List.flatMap_cons]
    split_ifs with hlimit
    · simp [hlimit]
    · have hleft : limit - ((all a).take limit).length = limit - (all a).length := by
        rw [List.length_take]
        omega
      dsimp only
      rw [h a List.mem_cons_self limit (Nat.pos_of_ne_zero hlimit), hleft,
        ih fun b hb => h b (List.mem_cons_of_mem _ hb), ← List.take_append]

lemma leadsTo_iff {id : String} : leadsTo next root through id = true ↔
    id ∈ root :: through ∧ Within next (root :: through) id root := by
  simp [leadsTo, mem_explore_iff]

/-- Where no way leads back to the root, the search without a limit finds none either. -/
lemma allWays_eq_nil {id : String} (hnodup : through.Nodup) (hroot : root ∉ through)
    (hid : id ∈ through) (h : ¬leadsTo next root through id = true) :
    allWays next root (through.erase id) id = [] := by
  have hroot' : root ∉ through.erase id := fun hmem => hroot (List.mem_of_mem_erase hmem)
  rw [List.eq_nil_iff_forall_not_mem]
  intro way hway
  obtain ⟨rest, rfl, -, hsub, hback⟩ := (mem_allWays_iff (hnodup.erase id) hroot').1 hway
  have hsub' : root :: rest ⊆ root :: through :=
    List.cons_subset_cons _ fun a ha => List.erase_subset (hsub ha)
  have hreach : Within next (root :: rest) id root := hback.transGen.to_reflTransGen
  exact h (leadsTo_iff.2 ⟨List.mem_cons_of_mem _ hid, hreach.mono hsub'⟩)

/-- The search with a limit finds the first of the ways, up to the limit. -/
lemma waysBack_eq_take {depth : Nat} (hdepth : through.length ≤ depth) (hnodup : through.Nodup)
    (hroot : root ∉ through) (limit : Nat) :
    waysBack next root depth through current limit
      = (allWays next root through current).take limit := by
  induction through, current using allWays.induct generalizing depth limit with
  | case1 through current ih =>
    rw [waysBack, allWays]
    refine upTo_eq_take (fun id _ bound hbound => ?_) limit
    by_cases heq : id = root
    · rw [if_pos heq, if_pos heq, List.take_of_length_le (Nat.succ_le_of_lt hbound)]
    · rw [if_neg heq, if_neg heq]
      by_cases hid : id ∈ through
      · have hlength := List.length_erase_of_mem hid
        have hpos := List.length_pos_of_mem hid
        obtain ⟨depth, rfl⟩ : ∃ depth', depth = depth' + 1 := ⟨depth - 1, by omega⟩
        rw [if_pos hid]
        by_cases hleads : leadsTo next root through id = true
        · simp only [hid, hleads, and_self, if_true]
          have hroot' : root ∉ through.erase id := fun hmem => hroot (List.mem_of_mem_erase hmem)
          rw [ih id hid (by omega) (hnodup.erase id) hroot', List.map_take]
        · rw [allWays_eq_nil hnodup hroot hid hleads]
          simp [hleads]
      · cases depth <;> simp [hid]

/-- The search for cycles with a limit finds the first of them, up to the limit. -/
lemma cyclesWithin_eq_take (hnodup : ids.Nodup) (limit : Nat) :
    cyclesWithin next limit ids = (allCycles next ids).take limit := by
  induction ids generalizing limit with
  | nil => simp [cyclesWithin, allCycles]
  | cons root others ih =>
    obtain ⟨hroot, hothers⟩ := List.nodup_cons.1 hnodup
    have hleft : limit - ((allWays next root others root).take limit).length
        = limit - (allWays next root others root).length := by
      rw [List.length_take]
      omega
    rw [cyclesWithin, allCycles, waysBack_eq_take le_rfl hothers hroot]
    rw [hleft, ih hothers, ← List.take_append]

/-! ### Cycles that are found -/

/-- What the search without a limit finds is a cycle of the given ids. -/
lemma isCycle_of_mem_allCycles {cycle : List String} (hnodup : ids.Nodup)
    (h : cycle ∈ allCycles next ids) : IsCycle next ids cycle := by
  induction ids with
  | nil => cases h
  | cons root others ih =>
    obtain ⟨hroot, hothers⟩ := List.nodup_cons.1 hnodup
    rcases List.mem_append.1 h with h | h
    · obtain ⟨rest, rfl, hrest, hsub, hback⟩ := (mem_allWays_iff hothers hroot).1 h
      exact ⟨List.nodup_cons.2 ⟨fun hmem => hroot (hsub hmem), hrest⟩,
        List.cons_subset_cons _ hsub, root, rest, rfl, hback⟩
    · have hcycle := ih hothers h
      exact ⟨hcycle.nodup, List.subset_cons_of_subset _ hcycle.subset, hcycle.closed⟩

/-- What a search finds within some ids is a cycle of them. -/
lemma isCycle_of_mem {limit : Nat} {cycle : List String} (hnodup : ids.Nodup)
    (h : cycle ∈ cyclesWithin next limit ids) : IsCycle next ids cycle := by
  rw [cyclesWithin_eq_take hnodup] at h
  exact isCycle_of_mem_allCycles hnodup (List.mem_of_mem_take h)

/-- On a cycle some id leads back to itself. -/
lemma IsCycle.exists_transGen {cycle : List String} (h : IsCycle next ids cycle) :
    ∃ id, Relation.TransGen (fun a b => b ∈ next a) id id := by
  obtain ⟨root, rest, rfl, hback⟩ := h.closed
  exact ⟨root, Relation.TransGen.mono (fun _ _ hstep => hstep.1) _ _ hback.transGen⟩

end Search

namespace Graph

variable {g : Graph}

lemma nodup_ids (g : Graph) : g.ids.Nodup :=
  nodup_eraseDups _

/-- Where no id leads back to itself, there is no cycle to be found. -/
lemma cycles_eq_nil_of_acyclic (h : ∀ id, ¬g.LeadsTo id id) (limit : Nat) :
    g.cycles limit = [] := by
  have hnone : cyclesWithin g.targets limit g.ids = [] := by
    rw [List.eq_nil_iff_forall_not_mem]
    intro cycle hcycle
    obtain ⟨id, hid⟩ := (isCycle_of_mem g.nodup_ids hcycle).exists_transGen
    exact h id hid
  rw [cycles, hnone, List.map_nil, List.mergeSort_nil]

end Graph

end Workflow
