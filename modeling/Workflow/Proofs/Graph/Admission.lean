import Mathlib.Data.List.Perm.Basic
import Mathlib.Tactic
import Workflow.Proofs.Graph.Cycle
import Workflow.Proofs.Graph.Rules

/-!
# The problems that an edge brings

What an edge added to a graph, be the graph as broken as it may, does to the problems of edges. An
edge that is admitted leaves them all as they are. Any other edge brings one that was not there: a
problem of its own ends, or a target with one input more than it had.
-/

namespace Workflow

/-! ### Problems of edges -/

namespace Problem

/-- Whether a problem is one of edges: of their ends, or of edges that share theirs. -/
def isOfEdge : Problem → Bool
  | duplicateEdge _ _ | unknownSource _ _ | unknownTarget _ _ | endWithOutput _ _
  | startWithInput _ _ | manyInputs _ _ => true
  | duplicateNode _ | noStart | manyStarts _ _ | noEnd | cycle _ | tooManyCycles
  | unreachable _ => false

/-- Whether a sentence begins and ends as one for a problem of edges does. -/
def TellsOfEdge (sentence : List Char) : Prop :=
  ['E'] <+: sentence ∨ "Duplicate e".toList <+: sentence ∨
    ("Node".toList <+: sentence ∧ sentence.getLast? = some ')')

lemma tellsOfEdge_message_iff (p : Problem) : TellsOfEdge p.message.toList ↔ p.isOfEdge := by
  cases p <;> delta message <;> dsimp only [isOfEdge] <;>
    simp [TellsOfEdge, List.getLast?_append, List.getLast?_cons]

/-- The sentence for a problem of edges is not one for any other problem. -/
lemma isOfEdge_congr {p q : Problem} (h : p.message = q.message) : p.isOfEdge = q.isOfEdge := by
  rw [Bool.eq_iff_iff, ← tellsOfEdge_message_iff, ← tellsOfEdge_message_iff, h]

lemma message_manyInputs (id : String) (count : Nat) : (manyInputs id count).message
    = "Node '" ++ id ++ "' has " ++ toString count ++ " inputs (at most one allowed)" :=
  rfl

/-- An id with so many inputs is told apart from the same id with another number of them. -/
lemma message_manyInputs_ne (id : String) {m n : Nat} (h : m ≠ n) :
    (manyInputs id m).message ≠ (manyInputs id n).message := by
  intro heq
  have hlist := congrArg String.toList heq
  simp only [message_manyInputs, String.toList_append, List.append_assoc,
    List.append_cancel_left_eq, List.append_cancel_right_eq] at hlist
  have hdigits : Nat.toDigits 10 m = Nat.toDigits 10 n := by
    rw [← Nat.toList_repr, ← Nat.toList_repr]
    exact hlist
  rw [← @Nat.ofDigitChars_ten_toDigits m, hdigits, Nat.ofDigitChars_ten_toDigits] at h
  exact h rfl

end Problem

namespace Graph

variable {g : Graph} {e : Edge}

/-- What is said about a graph, one sentence for each problem. -/
def lines (g : Graph) : List String :=
  g.problems.map Problem.message

/-- The edges between the same ends as an earlier one. -/
def pairProblems (g : Graph) : List Problem :=
  (repeated [] (g.edges.map fun e => (e.source, e.target))).map
    fun pair => .duplicateEdge pair.1 pair.2

lemma isOfEdge_of_mem_edgeProblems {p : Problem} (h : p ∈ g.edgeProblems e) :
    p.isOfEdge = true := by
  simp only [edgeProblems, List.mem_append, List.mem_ite_nil_right, List.mem_singleton] at h
  rcases h with ((⟨-, rfl⟩ | ⟨-, rfl⟩) | ⟨-, rfl⟩) | ⟨-, rfl⟩ <;> rfl

lemma exists_of_mem_inputProblems {p : Problem} (h : p ∈ g.inputProblems) :
    ∃ id count, p = .manyInputs id count := by
  obtain ⟨id, -, hid⟩ := List.mem_filterMap.1 h
  split_ifs at hid
  exact ⟨id, _, (Option.some.inj hid).symm⟩

/-- The problems of edges are found in three passes over them. -/
lemma filter_isOfEdge (g : Graph) : g.problems.filter Problem.isOfEdge
    = g.pairProblems ++ g.edges.flatMap g.edgeProblems ++ g.inputProblems := by
  have hnone : ∀ ps : List Problem, (∀ p ∈ ps, p.isOfEdge = false) →
      ps.filter Problem.isOfEdge = [] :=
    fun ps h => List.filter_eq_nil_iff.2 fun p hp => by simp [h p hp]
  have hnodes := hnone ((repeated [] (g.nodes.map Node.id)).map .duplicateNode) <| by
    simp only [List.mem_map]
    rintro p ⟨id, -, rfl⟩
    rfl
  have hendpoint := hnone g.endpointProblems fun p hp => by
    rcases of_mem_endpointProblems hp with rfl | ⟨first, ignored, rfl⟩ | rfl <;> rfl
  have hcycle := hnone g.cycleProblems fun p hp => by
    rcases of_mem_cycleProblems hp with rfl | ⟨ids, rfl⟩ <;> rfl
  have hreach := hnone g.reachProblems fun p hp => by
    obtain ⟨id, rfl⟩ := of_mem_reachProblems hp
    rfl
  have hpairs : g.pairProblems.filter Problem.isOfEdge = g.pairProblems := by
    refine List.filter_eq_self.2 fun p hp => ?_
    obtain ⟨pair, -, rfl⟩ := List.mem_map.1 hp
    rfl
  have hedges : (g.edges.flatMap g.edgeProblems).filter Problem.isOfEdge
      = g.edges.flatMap g.edgeProblems := by
    refine List.filter_eq_self.2 fun p hp => ?_
    obtain ⟨e, -, hp⟩ := List.mem_flatMap.1 hp
    exact isOfEdge_of_mem_edgeProblems hp
  have hinputs : g.inputProblems.filter Problem.isOfEdge = g.inputProblems := by
    refine List.filter_eq_self.2 fun p hp => ?_
    obtain ⟨id, count, rfl⟩ := exists_of_mem_inputProblems hp
    rfl
  rw [pairProblems] at hpairs ⊢
  simp only [problems, List.filter_append, hnodes, hpairs, hedges, hinputs, hendpoint, hcycle,
    hreach, List.nil_append, List.append_nil]

/-- Whatever else is said about a graph, it is not the sentence for a problem of edges. -/
lemma count_lines {p : Problem} (hp : p.isOfEdge = true) : g.lines.count p.message
    = ((g.problems.filter Problem.isOfEdge).map Problem.message).count p.message := by
  rw [lines]
  induction g.problems with
  | nil => rfl
  | cons q ps ih =>
    rw [List.map_cons, List.count_cons, ih]
    cases hq : q.isOfEdge with
    | true => rw [List.filter_cons_of_pos hq, List.map_cons, List.count_cons]
    | false =>
      have hne : q.message ≠ p.message := fun heq => by
        rw [Problem.isOfEdge_congr heq, hp] at hq
        cases hq
      rw [List.filter_cons_of_neg (by simp [hq])]
      simp [hne]

/-! ### The problems after an edge is added -/

lemma repeated_append_singleton {α : Type} [DecidableEq α] (earlier xs : List α) (a : α) :
    repeated earlier (xs ++ [a])
      = repeated earlier xs ++ if a ∈ earlier ∨ a ∈ xs then [a] else [] := by
  induction xs generalizing earlier with
  | nil => by_cases ha : a ∈ earlier <;> simp [repeated, ha]
  | cons x xs ih =>
    rw [List.cons_append, repeated, repeated]
    by_cases hx : x ∈ earlier
    · rw [if_pos hx, if_pos hx, ih, List.cons_append]
      have : a ∈ earlier ∨ a ∈ xs ↔ a ∈ earlier ∨ a ∈ x :: xs := by
        rw [List.mem_cons]
        refine ⟨.imp_right .inr, ?_⟩
        rintro (ha | rfl | ha)
        exacts [.inl ha, .inl hx, .inr ha]
      simp only [this]
    · rw [if_neg hx, if_neg hx, ih]
      simp only [List.mem_cons, or_assoc, or_left_comm]

lemma pairProblems_addEdge (g : Graph) (e : Edge) : (g.addEdge e).pairProblems = g.pairProblems
    ++ if (e.source, e.target) ∈ g.edges.map fun e => (e.source, e.target)
      then [.duplicateEdge e.source e.target] else [] := by
  rw [pairProblems, addEdge, List.map_append, List.map_singleton, repeated_append_singleton,
    List.map_append, pairProblems]
  simp only [List.not_mem_nil, false_or]
  split_ifs <;> rfl

lemma flatMap_edgeProblems_addEdge (g : Graph) (e : Edge) :
    (g.addEdge e).edges.flatMap (g.addEdge e).edgeProblems
      = g.edges.flatMap g.edgeProblems ++ g.edgeProblems e := by
  have hsame : (g.addEdge e).edgeProblems = g.edgeProblems := rfl
  rw [hsame, addEdge, List.flatMap_append, List.flatMap_singleton]

/-- The problem of an id with so many inputs, if they are too many. -/
def inputProblem? (id : String) (count : Nat) : Option Problem :=
  if 1 < count then some (.manyInputs id count) else none

lemma inputProblems_eq (g : Graph) : g.inputProblems
    = (g.edges.map Edge.target).eraseDups.filterMap
      fun id => inputProblem? id ((g.edges.map Edge.target).count id) :=
  rfl

lemma filterMap_inputProblem?_append {targets ids : List String} {target : String}
    (h : target ∉ ids) :
    ids.filterMap (fun id => inputProblem? id ((targets ++ [target]).count id))
      = ids.filterMap fun id => inputProblem? id (targets.count id) := by
  refine List.filterMap_congr fun id hid => ?_
  have hne : target ≠ id := fun heq => h (heq ▸ hid)
  have hnone : [target].count id = 0 := List.count_eq_zero.2 fun hmem =>
    hne (List.mem_singleton.1 hmem).symm
  rw [List.count_append, hnone, Nat.add_zero]

/-- An edge to an id without inputs leaves the problems of inputs as they are. -/
lemma inputProblems_addEdge_of_not_mem (h : e.target ∉ g.edges.map Edge.target) :
    (g.addEdge e).inputProblems = g.inputProblems := by
  rw [inputProblems_eq, inputProblems_eq, addEdge, List.map_append, List.map_singleton]
  set targets := g.edges.map Edge.target
  have hcount : (targets ++ [e.target]).count e.target = 1 := by
    rw [List.count_append, List.count_eq_zero.2 h, List.count_singleton_self]
  have hnew : ([e.target].removeAll targets).eraseDups = [e.target] := by
    rw [List.removeAll, List.filter_cons_of_pos (by simp [h])]
    rfl
  rw [List.eraseDups_append, hnew, List.filterMap_append,
    filterMap_inputProblem?_append (by rwa [List.mem_eraseDups]), List.filterMap_cons, hcount]
  exact List.append_nil _

/-- An edge to an id with inputs changes the problem of that id only. -/
lemma inputProblems_addEdge_of_mem (h : e.target ∈ g.edges.map Edge.target) :
    ∃ others, g.inputProblems.Perm
        ((inputProblem? e.target ((g.edges.map Edge.target).count e.target)).toList ++ others) ∧
      (g.addEdge e).inputProblems.Perm
        (.manyInputs e.target ((g.edges.map Edge.target).count e.target + 1) :: others) := by
  set targets := g.edges.map Edge.target with htargets
  obtain ⟨before, after, hsplit⟩ := List.mem_iff_append.1 (List.mem_eraseDups.2 h)
  have hnodup := hsplit ▸ nodup_eraseDups targets
  have hbefore : e.target ∉ before := fun hmem =>
    (List.nodup_append.1 hnodup).2.2 _ hmem _ List.mem_cons_self rfl
  have hafter : e.target ∉ after :=
    (List.nodup_cons.1 (List.nodup_append.1 hnodup).2.1).1
  have hseen : [e.target].removeAll targets = [] := by simp [List.removeAll, h]
  have hcount : (targets ++ [e.target]).count e.target = targets.count e.target + 1 := by simp
  have hmany : 1 < targets.count e.target + 1 := Nat.succ_lt_succ (List.count_pos_iff.2 h)
  set inputs := fun id => inputProblem? id (targets.count id) with hinputs
  refine ⟨before.filterMap inputs ++ after.filterMap inputs, ?_, ?_⟩
  · rw [inputProblems_eq, ← htargets, hsplit, List.filterMap_append, List.filterMap_cons]
    cases inputProblem? e.target (targets.count e.target) with
    | none => exact .refl _
    | some p => exact List.perm_middle
  · rw [inputProblems_eq, addEdge, List.map_append, List.map_singleton, ← htargets,
      List.eraseDups_append, hseen, List.eraseDups_nil, List.append_nil, hsplit,
      List.filterMap_append, List.filterMap_cons, hcount, filterMap_inputProblem?_append hbefore,
      filterMap_inputProblem?_append hafter, inputProblem?, if_pos hmany]
    exact List.perm_middle

/-! ### Edges that are admitted -/

/-- What is wrong with the ends of an edge, node by node. -/
lemma edgeProblems_eq_nil_iff_find? : g.edgeProblems e = [] ↔ ∃ s t,
    g.find? e.source = some s ∧ g.find? e.target = some t ∧ s.type ≠ .finish ∧ t.type ≠ .start := by
  rw [edgeProblems, typeOf?, typeOf?]
  cases g.find? e.source <;> cases g.find? e.target <;> simp

/-- An edge is admitted if nothing is wrong with its ends and no edge has its target yet. -/
lemma admits_iff_edgeProblems : g.admits e.source e.target = true ↔
    g.edgeProblems e = [] ∧ e.target ∉ g.edges.map Edge.target := by
  rw [admits_iff, edgeProblems_eq_nil_iff_find?]
  simp only [List.mem_map, not_exists, not_and]
  constructor
  · rintro ⟨s, t, hs, ht, hsource, htarget, hfree⟩
    exact ⟨⟨s, t, hs, ht, hsource, htarget⟩, hfree⟩
  · rintro ⟨⟨s, t, hs, ht, hsource, htarget⟩, hfree⟩
    exact ⟨s, t, hs, ht, hsource, htarget, hfree⟩

/-- An edge that is admitted leaves the problems of edges as they are. -/
lemma filter_isOfEdge_addEdge (h : g.admits e.source e.target = true) :
    (g.addEdge e).problems.filter Problem.isOfEdge = g.problems.filter Problem.isOfEdge := by
  obtain ⟨hends, hfree⟩ := admits_iff_edgeProblems.1 h
  have hpair : (e.source, e.target) ∉ g.edges.map fun e => (e.source, e.target) := by
    intro hmem
    obtain ⟨other, hother, heq⟩ := List.mem_map.1 hmem
    exact hfree (List.mem_map.2 ⟨other, hother, (Prod.mk.inj heq).2⟩)
  rw [filter_isOfEdge, filter_isOfEdge, pairProblems_addEdge, if_neg hpair,
    flatMap_edgeProblems_addEdge, hends, inputProblems_addEdge_of_not_mem hfree, List.append_nil,
    List.append_nil]

/-- How often a sentence is said about the inputs of a graph. -/
def inputCount (g : Graph) (line : String) : Nat :=
  (g.inputProblems.map Problem.message).count line

/-- No sentence about the inputs is one about the ends of an edge. -/
lemma inputCount_of_mem_edgeProblems {g' : Graph} {p : Problem} (h : p ∈ g.edgeProblems e) :
    g'.inputCount p.message = 0 := by
  rw [inputCount, List.count_eq_zero]
  intro hmem
  obtain ⟨q, hq, heq⟩ := List.mem_map.1 hmem
  obtain ⟨id, count, rfl⟩ := exists_of_mem_inputProblems hq
  have hhead : p.message.toList.head? = some 'E' := by
    simp only [edgeProblems, List.mem_append, List.mem_ite_nil_right, List.mem_singleton] at h
    rcases h with ((⟨-, rfl⟩ | ⟨-, rfl⟩) | ⟨-, rfl⟩) | ⟨-, rfl⟩ <;> delta Problem.message <;>
      simp
  rw [← heq, Problem.message_manyInputs] at hhead
  simp at hhead

/-- What is said about the ends of edges is said again after an edge was added, and more. -/
lemma count_lines_addEdge_le {p : Problem} (hp : p.isOfEdge = true) :
    g.lines.count p.message + (g.addEdge e).inputCount p.message
        + ((g.edgeProblems e).map Problem.message).count p.message
      ≤ (g.addEdge e).lines.count p.message + g.inputCount p.message := by
  rw [count_lines hp, count_lines hp, filter_isOfEdge, filter_isOfEdge, pairProblems_addEdge,
    flatMap_edgeProblems_addEdge, inputCount, inputCount]
  simp only [List.map_append, List.count_append]
  omega

/-- An edge that is not admitted brings a problem of edges that was not there. -/
lemma exists_count_lt_of_not_admits (h : ¬g.admits e.source e.target = true) :
    ∃ p : Problem, p.isOfEdge = true ∧
      g.lines.count p.message < (g.addEdge e).lines.count p.message := by
  rw [admits_iff_edgeProblems, not_and_or, not_not] at h
  rcases h with hends | htarget
  · obtain ⟨p, hp⟩ := List.exists_mem_of_ne_nil _ hends
    refine ⟨p, isOfEdge_of_mem_edgeProblems hp, ?_⟩
    have hle := @count_lines_addEdge_le g e p (isOfEdge_of_mem_edgeProblems hp)
    have hpos := List.count_pos_iff.2 (List.mem_map_of_mem (f := Problem.message) hp)
    rw [inputCount_of_mem_edgeProblems hp, inputCount_of_mem_edgeProblems hp] at hle
    omega
  · -- the target's own line is replaced by one with a greater number of inputs
    obtain ⟨others, hbefore, hafter⟩ := inputProblems_addEdge_of_mem htarget
    set count := (g.edges.map Edge.target).count e.target
    refine ⟨.manyInputs e.target (count + 1), rfl, ?_⟩
    have hle := @count_lines_addEdge_le g e (.manyInputs e.target (count + 1)) rfl
    have hold : ((inputProblem? e.target count).toList.map Problem.message).count
        (Problem.manyInputs e.target (count + 1)).message = 0 := by
      rw [inputProblem?]
      split_ifs
      · rw [Option.toList_some, List.map_singleton, List.count_eq_zero, List.mem_singleton]
        exact Problem.message_manyInputs_ne e.target (Nat.succ_ne_self count)
      · rfl
    rw [inputCount, inputCount, (hbefore.map _).count_eq, (hafter.map _).count_eq, List.map_append,
      List.count_append, hold, List.map_cons, List.count_cons_self] at hle
    omega

/-- An edge is not admitted exactly if it brings a problem of edges. -/
lemma not_admits_iff : ¬g.admits e.source e.target = true ↔ ∃ p : Problem, p.isOfEdge = true ∧
    g.lines.count p.message < (g.addEdge e).lines.count p.message := by
  refine ⟨exists_count_lt_of_not_admits, ?_⟩
  rintro ⟨p, hp, hlt⟩ hadmits
  rw [count_lines hp, count_lines hp, filter_isOfEdge_addEdge hadmits] at hlt
  exact lt_irrefl _ hlt

end Graph

end Workflow
