import Mathlib.Data.List.Cycle
import Mathlib.Data.Set.Card
import Workflow.Proofs.Graph.Admission

/-!
# The cycles that are reported

A simple cycle has no beginning: it is a list of ids up to rotation. What is said about a graph
names every simple cycle of its known nodes once, as long as there are no more than may be reported,
and otherwise as many as may be, and says that there are more.
-/

namespace Workflow

/-- The simple cycles through the given ids: no id comes twice, and each leads to the next. -/
def simpleCycles (next : String → List String) (ids : List String) : Set (Cycle String) :=
  {c | c ≠ Cycle.nil ∧ c.Nodup ∧ (∀ id ∈ c, id ∈ ids) ∧ c.Chain fun a b => b ∈ next a}

section Rotation

variable {next : String → List String} {ids cycle : List String} {root : String}

/-- A list is a simple cycle, wherever it begins, exactly if it is a cycle for the search. -/
lemma coe_mem_simpleCycles_iff : (cycle : Cycle String) ∈ simpleCycles next ids ↔
    IsCycle next ids cycle := by
  constructor
  · rintro ⟨hne, hnodup, hsub, hchain⟩
    obtain ⟨root, rest, rfl⟩ : ∃ root rest, cycle = root :: rest :=
      List.exists_cons_of_ne_nil fun hnil => hne (hnil ▸ rfl)
    exact ⟨hnodup, hsub, root, rest, rfl, (Cycle.chain_coe_cons _ _ _).1 hchain⟩
  · rintro ⟨hnodup, hsub, root, rest, rfl, hback⟩
    exact ⟨by simp, hnodup, hsub, (Cycle.chain_coe_cons _ _ _).2 hback⟩

/-- Of the rotations of a list in which no id comes twice, only one begins at a given id. -/
lemma eq_of_isRotated_cons {rest rest' : List String} (hnodup : (root :: rest).Nodup)
    (h : (root :: rest).IsRotated (root :: rest')) : rest = rest' := by
  obtain ⟨n, hle, hn⟩ := List.isRotated_iff_mod.1 h
  rcases Nat.lt_or_eq_of_le hle with hlt | heq
  · have hhead := congrArg List.head? hn
    rw [List.head?_rotate hlt, List.head?_cons] at hhead
    obtain rfl : n = 0 :=
      (List.getElem?_inj hlt hnodup).1 (hhead.trans List.getElem?_cons_zero.symm)
    simpa using hn
  · rw [heq, List.rotate_length] at hn
    exact (List.cons.inj hn).2

/-- A cycle that passes an id may be begun there. -/
lemma exists_isRotated_cons (h : root ∈ cycle) : ∃ rest, cycle.IsRotated (root :: rest) := by
  obtain ⟨before, after, rfl⟩ := List.append_of_mem h
  exact ⟨after ++ before, List.isRotated_append⟩

/-- Every simple cycle is found, begun at the first of its ids, by induction on these. -/
lemma mem_map_allCycles_iff (hnodup : ids.Nodup) {c : Cycle String} :
    c ∈ (allCycles next ids).map Cycle.ofList ↔ c ∈ simpleCycles next ids := by
  constructor
  · intro h
    obtain ⟨cycle, hcycle, rfl⟩ := List.mem_map.1 h
    exact coe_mem_simpleCycles_iff.2 (isCycle_of_mem_allCycles hnodup hcycle)
  · intro h
    induction ids with
    | nil =>
      obtain ⟨hne, -, hsub, -⟩ := h
      induction c using Cycle.induction_on with
      | nil => exact absurd rfl hne
      | cons id rest _ => cases hsub id (Cycle.mem_coe_iff.2 List.mem_cons_self)
    | cons root others ih =>
      obtain ⟨hroot, hothers⟩ := List.nodup_cons.1 hnodup
      rw [allCycles, List.map_append, List.mem_append]
      by_cases hmem : root ∈ c
      · -- the cycle is begun at the root, so that its other ids are among the others
        obtain ⟨cycle, rfl⟩ := Quotient.exists_rep c
        obtain ⟨rest, hrotated⟩ := exists_isRotated_cons (Cycle.mem_coe_iff.1 hmem)
        change (cycle : Cycle String) ∈ simpleCycles _ _ at h
        rw [Cycle.coe_eq_coe.2 hrotated, coe_mem_simpleCycles_iff] at h
        obtain ⟨hrest, hsub, _, _, heq, hback⟩ := h
        obtain ⟨rfl, rfl⟩ := List.cons.inj heq
        obtain ⟨hnew, hrest⟩ := List.nodup_cons.1 hrest
        have hsub' : rest ⊆ others := fun id hid =>
          (List.mem_cons.1 (hsub (List.mem_cons_of_mem _ hid))).resolve_left
            fun (heq : id = root) => hnew (heq ▸ hid)
        refine .inl (List.mem_map.2 ⟨root :: rest, ?_, (Cycle.coe_eq_coe.2 hrotated).symm⟩)
        exact (mem_allWays_iff hothers hroot).2 ⟨rest, rfl, hrest, hsub', hback⟩
      · obtain ⟨hne, hc, hsub, hchain⟩ := h
        refine .inr (ih hothers ⟨hne, hc, fun id hid => ?_, hchain⟩)
        exact (List.mem_cons.1 (hsub id hid)).resolve_left fun heq => hmem (heq ▸ hid)

/-- No simple cycle is found twice. -/
lemma nodup_map_allCycles (hnodup : ids.Nodup) :
    ((allCycles next ids).map Cycle.ofList).Nodup := by
  induction ids with
  | nil => exact List.nodup_nil
  | cons root others ih =>
    obtain ⟨hroot, hothers⟩ := List.nodup_cons.1 hnodup
    rw [allCycles, List.map_append]
    refine (List.Nodup.map_on ?_ (nodup_allWays _ _ _ _)).append (ih hothers) ?_
    · intro way hway way' hway' heq
      obtain ⟨rest, rfl, hrest, hsub, -⟩ := (mem_allWays_iff hothers hroot).1 hway
      obtain ⟨rest', rfl, -, -, -⟩ := (mem_allWays_iff hothers hroot).1 hway'
      have hnodup' : (root :: rest).Nodup :=
        List.nodup_cons.2 ⟨fun hmem => hroot (hsub hmem), hrest⟩
      rw [eq_of_isRotated_cons hnodup' (Cycle.coe_eq_coe.1 heq)]
    · -- the first cycles pass the root, the others do not
      intro c hc hc'
      obtain ⟨way, hway, rfl⟩ := List.mem_map.1 hc
      obtain ⟨rest, rfl, -, -, -⟩ := (mem_allWays_iff hothers hroot).1 hway
      have hsub := ((mem_map_allCycles_iff hothers).1 hc').2.2.1
      exact hroot (hsub root (Cycle.mem_coe_iff.2 List.mem_cons_self))

/-- There are as many simple cycles as the search without a limit finds. -/
lemma simpleCycles_eq (hnodup : ids.Nodup) :
    simpleCycles next ids = ↑((allCycles next ids).map Cycle.ofList).toFinset := by
  ext c
  rw [List.coe_toFinset, Set.mem_ofPred_eq, mem_map_allCycles_iff hnodup]

lemma finite_simpleCycles (hnodup : ids.Nodup) : (simpleCycles next ids).Finite := by
  rw [simpleCycles_eq hnodup]
  exact Finset.finite_toSet _

lemma ncard_simpleCycles (hnodup : ids.Nodup) :
    (simpleCycles next ids).ncard = (allCycles next ids).length := by
  rw [simpleCycles_eq hnodup, Set.ncard_coe_finset,
    List.toFinset_card_of_nodup (nodup_map_allCycles hnodup), List.length_map]

/-- To begin a cycle at its least id is to rotate it. -/
lemma coe_fromLeast (cycle : List String) : (fromLeast cycle : Cycle String) = cycle := by
  cases cycle with
  | nil => rfl
  | cons first others =>
    have hsplit : (first :: others).takeWhile (· ≠ leastId first others)
        ++ (first :: others).dropWhile (· ≠ leastId first others) = first :: others :=
      List.takeWhile_append_dropWhile
    exact (Cycle.coe_eq_coe.2 List.isRotated_append).trans (congrArg Cycle.ofList hsplit)

end Rotation

/-! ### Lines that tell of cycles -/

/-- Whether a line names a cycle, or says that there are too many, by how it begins. -/
def tellsOfCycles (line : String) : Bool :=
  "Cycle detected: ".toList.isPrefixOf line.toList
    || "Too many cycles".toList.isPrefixOf line.toList

/-- Whether a problem is a cycle, or that there are too many. -/
def Problem.isOfCycles : Problem → Bool
  | .cycle _ | .tooManyCycles => true
  | _ => false

lemma tellsOfCycles_message (p : Problem) : tellsOfCycles p.message = p.isOfCycles := by
  cases p <;> delta Problem.message <;> dsimp only [Problem.isOfCycles] <;>
    simp [tellsOfCycles, List.isPrefixOf]

namespace Graph

/-- The simple cycles of a graph: parallel edges count once, and edges to unknown ids not at all. -/
def simpleCycles (g : Graph) : Set (Cycle String) :=
  Workflow.simpleCycles g.targets g.ids

/-- The cycles of a graph up to a limit are the first ones that the search finds. -/
lemma map_cycles_perm (g : Graph) (limit : Nat) : ((g.cycles limit).map Cycle.ofList).Perm
    (((allCycles g.targets g.ids).map Cycle.ofList).take limit) := by
  have hsorted := List.mergeSort_perm ((cyclesWithin g.targets limit g.ids).map fromLeast) idsBefore
  refine (hsorted.map Cycle.ofList).trans (.of_eq ?_)
  rw [List.map_map, cyclesWithin_eq_take g.nodup_ids, ← List.map_take]
  exact List.map_congr_left fun cycle _ => coe_fromLeast cycle

lemma filter_isOfCycles_problems (g : Graph) :
    g.problems.filter Problem.isOfCycles = g.cycleProblems := by
  have hcycles : ∀ p ∈ g.cycleProblems, p.isOfCycles = true := by
    intro p hp
    rcases of_mem_cycleProblems hp with rfl | ⟨_, rfl⟩ <;> rfl
  have hreach : ∀ p ∈ g.reachProblems, ¬p.isOfCycles = true := by
    intro p hp
    obtain ⟨_, rfl⟩ := of_mem_reachProblems hp
    exact Bool.false_ne_true
  rw [filter_problems (fun p hp => by cases p <;> first | rfl | cases hp) rfl (fun _ _ => rfl) rfl,
    List.filter_eq_self.2 hcycles, List.filter_eq_nil_iff.2 hreach, List.append_nil]

lemma filter_tellsOfCycles_lines (g : Graph) :
    g.lines.filter tellsOfCycles = g.cycleProblems.map Problem.message := by
  rw [lines, List.filter_map, ← filter_isOfCycles_problems]
  exact congrArg _ (List.filter_congr fun p _ => tellsOfCycles_message p)

/--
The lines about a graph that tell of cycles name simple cycles of it, and none twice. If there are
at most a hundred, the lines name them all. If there are more, they name exactly a hundred of them,
and after these one line says that there are too many.
-/
theorem lines_name_cycles (g : Graph) :
    g.simpleCycles.Finite ∧ ∃ found : List (List String),
      (found.map Cycle.ofList).Nodup ∧ (∀ c ∈ found.map Cycle.ofList, c ∈ g.simpleCycles) ∧
      ((g.simpleCycles.ncard ≤ 100 ∧ (∀ c ∈ g.simpleCycles, c ∈ found.map Cycle.ofList) ∧
          g.lines.filter tellsOfCycles
            = found.map fun ids => "Cycle detected: " ++ " -> ".intercalate ids) ∨
        (100 < g.simpleCycles.ncard ∧ found.length = 100 ∧
          g.lines.filter tellsOfCycles
            = (found.map fun ids => "Cycle detected: " ++ " -> ".intercalate ids)
              ++ [Problem.tooManyCycles.message])) := by
  refine ⟨finite_simpleCycles g.nodup_ids, ?_⟩
  have hcard : g.simpleCycles.ncard = (allCycles g.targets g.ids).length :=
    ncard_simpleCycles g.nodup_ids
  have hall : ((allCycles g.targets g.ids).map Cycle.ofList).Nodup :=
    nodup_map_allCycles g.nodup_ids
  have hmem : ∀ c, c ∈ (allCycles g.targets g.ids).map Cycle.ofList ↔ c ∈ g.simpleCycles :=
    fun c => mem_map_allCycles_iff g.nodup_ids
  have hperm := g.map_cycles_perm (maxCycles + 1)
  have hlength := hperm.length_eq
  rw [List.length_map, List.length_take, List.length_map, ← hcard] at hlength
  rw [filter_tellsOfCycles_lines, cycleProblems]
  rcases Nat.lt_or_ge maxCycles g.simpleCycles.ncard with hmany | hfew
  · have hmore : maxCycles < (g.cycles (maxCycles + 1)).length := by omega
    have hsub := (List.take_sublist maxCycles (g.cycles (maxCycles + 1))).map Cycle.ofList
    refine ⟨(g.cycles (maxCycles + 1)).take maxCycles, ?_, fun c hc => ?_, .inr ⟨hmany, ?_, ?_⟩⟩
    · exact hsub.nodup (hperm.nodup_iff.2 ((List.take_sublist _ _).nodup hall))
    · exact (hmem c).1 (List.mem_of_mem_take (hperm.mem_iff.1 (hsub.subset hc)))
    · rw [List.length_take]
      exact Nat.min_eq_left hmore.le
    · rw [if_pos hmore, List.map_append, List.map_map]
      rfl
  · have hless : ¬maxCycles < (g.cycles (maxCycles + 1)).length := by omega
    rw [List.take_of_length_le (by rw [List.length_map, ← hcard]; omega)] at hperm
    refine ⟨g.cycles (maxCycles + 1), hperm.nodup_iff.2 hall, fun c hc => ?_,
      .inl ⟨hfew, fun c hc => ?_, ?_⟩⟩
    · exact (hmem c).1 (hperm.mem_iff.1 hc)
    · exact hperm.mem_iff.2 ((hmem c).2 hc)
    · rw [if_neg hless, List.map_map]
      rfl

end Graph

end Workflow
