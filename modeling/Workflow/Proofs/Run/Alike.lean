import Workflow.Proofs.Graph.Rules
import Workflow.Proofs.Graph.Validity
import Workflow.Proofs.Run.Tree

/-!
# Graphs that run alike

A run sees no more of a graph than its start node reaches. Two graphs that are the same from there
leave the same trace and fail for the same reason, whatever else they hold and in whatever order.
-/

namespace Workflow

/-! ### Timestamps aside -/

/-- An entry without the time at which it was left. -/
def TraceEntry.undated (t : TraceEntry) : TraceEntry :=
  { t with timestamp := 0 }

/-- An error of a run without the time of the last entry. -/
def RunError.undated : RunError → RunError
  | .stopped cause last => .stopped cause (last.map TraceEntry.undated)
  | e => e

/-- A run without the times of its entries. -/
def Run.undated (r : Run) : Run where
  trace := r.trace.map TraceEntry.undated
  error? := r.error?.map RunError.undated

/-- Two graphs run alike: whenever they are run, the traces and the errors are the same. -/
def Graph.RunsLike (g g' : Graph) : Prop :=
  ∀ clock clock', (g.execute clock).undated = (g'.execute clock').undated

lemma visited_map_undated (trace : List TraceEntry) (id : String) :
    visited (trace.map TraceEntry.undated) id = visited trace id := by
  rw [visited, List.any_map]
  rfl

section Clock

variable {g : Graph} {clock clock' : Nat → Int} {trace trace' : List TraceEntry}

/-- The clock decides when entries are left, and nothing else. -/
lemma Graph.walk_undated (h : trace'.map TraceEntry.undated = trace.map TraceEntry.undated)
    (agenda : Agenda) :
    (g.walk clock' trace' agenda).trace.map TraceEntry.undated
        = (g.walk clock trace agenda).trace.map TraceEntry.undated ∧
      (g.walk clock' trace' agenda).error? = (g.walk clock trace agenda).error? := by
  have hvisited : ∀ {trace trace' : List TraceEntry},
      trace'.map TraceEntry.undated = trace.map TraceEntry.undated →
        ∀ id, visited trace' id = visited trace id := by
    intro trace trace' h id
    rw [← visited_map_undated trace', h, visited_map_undated]
  induction trace, agenda using Graph.walk.induct g clock generalizing trace' with
  | case1 trace =>
    rw [Graph.walk_nil, Graph.walk_nil]
    exact ⟨h, rfl⟩
  | case2 trace id input later hn =>
    rw [Graph.walk_dangling hn, Graph.walk_dangling hn]
    exact ⟨h, rfl⟩
  | case3 trace id input later n hn hv =>
    rw [Graph.walk_cycle hn hv, Graph.walk_cycle hn (hvisited h n.id ▸ hv)]
    exact ⟨h, rfl⟩
  | case4 trace id input later n hn hv cause he =>
    rw [Bool.not_eq_true] at hv
    rw [Graph.walk_failure hn hv he, Graph.walk_failure hn (hvisited h n.id ▸ hv) he]
    exact ⟨h, rfl⟩
  | case5 trace id input later n hn hv output he ih =>
    rw [Bool.not_eq_true] at hv
    rw [Graph.walk_visit hn hv he, Graph.walk_visit hn (hvisited h n.id ▸ hv) he]
    apply ih
    rw [List.map_append, List.map_append, h]
    rfl

/-- A run at another time differs in its timestamps only. -/
lemma Graph.execute_undated (g : Graph) (clock clock' : Nat → Int) :
    (g.execute clock').undated = (g.execute clock).undated := by
  cases hs : g.start? with
  | none => simp only [Graph.execute, hs]
  | some start =>
    cases he : g.hasEnd with
    | false =>
      simp only [Graph.execute, hs, he, Bool.not_false, if_true]
    | true =>
      obtain ⟨htrace, herror⟩ :=
        @Graph.walk_undated g clock clock' [] [] rfl [(start.id, .null)]
      rw [Graph.execute_of_begins clock hs he, Graph.execute_of_begins clock' hs he]
      have hlast := congrArg List.getLast? htrace
      rw [List.getLast?_map, List.getLast?_map] at hlast
      simp only [Run.undated, htrace, herror, Option.map_map, Function.comp_def, RunError.undated,
        hlast]

end Clock

/-! ### Graphs that are the same from a root -/

/--
Two graphs are the same from a root: what the root reaches has the same nodes in both, and the same
targets in the same order.
-/
structure Graph.SameFrom (g g' : Graph) (root : String) : Prop where
  nodes : ∀ n : Node, g.Reaches root n.id → (n ∈ g.nodes ↔ n ∈ g'.nodes)
  targets : ∀ id, g.Reaches root id → g.targets id = g'.targets id

section Same

variable {g g' : Graph} {root id : String}

/-- A graph of distinct ids finds the same nodes from the root as a graph that is the same there. -/
lemma Graph.SameFrom.find?_eq (h : g.SameFrom g' root)
    (hids' : (g'.nodes.map Node.id).Nodup) (hid : g.Reaches root id) :
    g.find? id = g'.find? id := by
  cases hn : g.find? id with
  | some n =>
    obtain rfl := Graph.id_of_find? hn
    exact (Graph.find?_of_mem hids' ((h.nodes n hid).1 (Graph.mem_of_find? hn))).symm
  | none =>
    refine (Graph.find?_eq_none_iff.2 fun n hn' heq => ?_).symm
    exact Graph.find?_eq_none_iff.1 hn n ((h.nodes n (heq ▸ hid)).2 hn') heq

/-- A walk that finds the same nodes and the same targets wherever it comes is the same walk. -/
lemma Graph.walk_eq_of_same (hfind : ∀ id, g.Reaches root id → g.find? id = g'.find? id)
    (htargets : ∀ id, g.Reaches root id → g.targets id = g'.targets id) (clock : Nat → Int)
    (trace : List TraceEntry) (agenda : Agenda)
    (hagenda : ∀ visit ∈ agenda, g.Reaches root visit.1) :
    g.walk clock trace agenda = g'.walk clock trace agenda := by
  induction trace, agenda using Graph.walk.induct g clock with
  | case1 trace => rw [Graph.walk_nil, Graph.walk_nil]
  | case2 trace id input later hn =>
    obtain ⟨hid, -⟩ := List.forall_mem_cons.1 hagenda
    rw [Graph.walk_dangling hn, Graph.walk_dangling (hfind id hid ▸ hn)]
  | case3 trace id input later n hn hv =>
    obtain ⟨hid, -⟩ := List.forall_mem_cons.1 hagenda
    rw [Graph.walk_cycle hn hv, Graph.walk_cycle (hfind id hid ▸ hn) hv]
  | case4 trace id input later n hn hv cause he =>
    obtain ⟨hid, -⟩ := List.forall_mem_cons.1 hagenda
    rw [Bool.not_eq_true] at hv
    rw [Graph.walk_failure hn hv he, Graph.walk_failure (hfind id hid ▸ hn) hv he]
  | case5 trace id input later n hn hv output he ih =>
    obtain ⟨hid, hlater⟩ := List.forall_mem_cons.1 hagenda
    obtain rfl : n.id = id := Graph.id_of_find? hn
    -- what the node leads to is reached too, so that the agenda stays within reach
    have hvisits : g.visitsFrom n.id output = g'.visitsFrom n.id output := by
      have hpairs := congrArg (List.map fun target => (target, output)) (htargets n.id hid)
      simpa only [Graph.visitsFrom, Graph.targets, List.map_map, Function.comp_def] using hpairs
    have hreached : ∀ visit ∈ g.visitsFrom n.id output ++ later, g.Reaches root visit.1 := by
      intro visit hvisit
      rcases List.mem_append.1 hvisit with hvisit | hvisit
      · obtain ⟨e, he', rfl⟩ := List.mem_map.1 hvisit
        obtain ⟨hmem, hsource⟩ := List.mem_filter.1 he'
        exact Graph.Reaches.target (of_decide_eq_true hsource ▸ hid) hmem
      · exact hlater visit hvisit
    rw [Bool.not_eq_true] at hv
    rw [Graph.walk_visit hn hv he, Graph.walk_visit (hfind n.id hid ▸ hn) hv he, ← hvisits]
    exact ih hreached

lemma Graph.SameFrom.runsLike {start : Node} (h : g.SameFrom g' start.id)
    (hids' : (g'.nodes.map Node.id).Nodup) (hs : g.start? = some start)
    (hs' : g'.start? = some start) (he : g.hasEnd = true) (he' : g'.hasEnd = true) :
    g.RunsLike g' := by
  intro clock clock'
  have hwalk : g.walk clock [] [(start.id, .null)] = g'.walk clock [] [(start.id, .null)] :=
    Graph.walk_eq_of_same (fun id hid => h.find?_eq hids' hid) h.targets clock [] _
      (List.forall_mem_singleton.2 (.refl _))
  have hrun : g.execute clock = g'.execute clock := by
    rw [Graph.execute_of_begins clock hs he, Graph.execute_of_begins clock hs' he', hwalk]
  rw [hrun, g'.execute_undated clock' clock]

/-! ### Changes out of reach -/

/-- An edge that leaves what the root does not reach is no target of what it reaches. -/
lemma Graph.targets_insertEdge {earlier later : List Edge} (hedges : g.edges = earlier ++ later)
    {e : Edge} (hid : e.source ≠ id) :
    { g with edges := earlier ++ e :: later }.targets id = g.targets id := by
  simp [Graph.targets, Graph.edgesFrom, hedges, hid]

end Same

/--
A run depends on what its start node reaches, and on nothing else. Let the ids of a graph be
distinct, and let it begin to run. Another graph of distinct ids that begins at the same start node
and is the same from there runs alike: it leaves the same trace, timestamps aside, and fails for the
same reason or not at all. So it does not matter how the nodes are ordered, as long as the first
start node stays the first, nor how the edges of one node stand among those of others. Nor does it
matter whether a node is there that the start node does not reach, or an edge that leaves from
somewhere that it does not reach.
-/
theorem Graph.execute_of_sameFrom {g : Graph} {start : Node} (hids : (g.nodes.map Node.id).Nodup)
    (hcan : g.canExecute = true) (hs : g.start? = some start) :
    (∀ g' : Graph, (g'.nodes.map Node.id).Nodup → g'.canExecute = true → g'.start? = some start →
      g.SameFrom g' start.id → g.RunsLike g') ∧
    (∀ nodes : List Node, nodes.Perm g.nodes → { g with nodes := nodes }.start? = some start →
      g.RunsLike { g with nodes := nodes }) ∧
    (∀ edges : List Edge, (∀ id, edges.filter (fun e => e.source = id) = g.edgesFrom id) →
      g.RunsLike { g with edges := edges }) ∧
    (∀ (earlier later : List Node) (n : Node), g.nodes = earlier ++ later →
      ((earlier ++ n :: later).map Node.id).Nodup →
      { g with nodes := earlier ++ n :: later }.start? = some start →
      ¬g.Reaches start.id n.id → g.RunsLike { g with nodes := earlier ++ n :: later }) ∧
    ∀ (earlier later : List Edge) (e : Edge), g.edges = earlier ++ later →
      ¬g.Reaches start.id e.source → g.RunsLike { g with edges := earlier ++ e :: later } := by
  obtain ⟨-, he⟩ := Graph.canExecute_iff.1 hcan
  obtain ⟨last, hlast, htype⟩ := Graph.hasEnd_iff.1 he
  refine ⟨fun g' hids' hcan' hs' h => ?_, fun nodes hperm hs' => ?_, fun edges hedges => ?_,
    fun earlier later n hnodes hids' hs' hfar => ?_, fun earlier later e hedges hfar => ?_⟩
  · exact h.runsLike hids' hs hs' he (Graph.canExecute_iff.1 hcan').2
  · have hsame : g.SameFrom { g with nodes := nodes } start.id :=
      ⟨fun n _ => hperm.mem_iff.symm, fun _ _ => rfl⟩
    refine hsame.runsLike ((hperm.map Node.id).nodup_iff.2 hids) hs hs' he ?_
    exact Graph.hasEnd_iff.2 ⟨last, hperm.mem_iff.2 hlast, htype⟩
  · have hsame : g.SameFrom { g with edges := edges } start.id :=
      ⟨fun _ _ => .rfl, fun id _ => (congrArg (List.map Edge.target) (hedges id)).symm⟩
    exact hsame.runsLike hids hs hs he he
  · have hsame : g.SameFrom { g with nodes := earlier ++ n :: later } start.id := by
      refine ⟨fun m hm => ?_, fun _ _ => rfl⟩
      have hne : m ≠ n := by
        rintro rfl
        exact hfar hm
      simp [hnodes, hne]
    refine hsame.runsLike hids' hs hs' he (Graph.hasEnd_iff.2 ⟨last, ?_, htype⟩)
    rw [hnodes, List.mem_append] at hlast
    simpa [or_left_comm, or_assoc] using Or.inr hlast
  · have hsame : g.SameFrom { g with edges := earlier ++ e :: later } start.id := by
      refine ⟨fun _ _ => .rfl, fun id hid => (Graph.targets_insertEdge hedges ?_).symm⟩
      rintro rfl
      exact hfar hid
    exact hsame.runsLike hids hs hs he he

/-- A start node that leads to an end node. -/
def Graph.straight : Graph where
  nodes := [⟨"a", ⟨0, 0⟩, .standard .start⟩, ⟨"b", ⟨0, 0⟩, .standard .finish⟩]
  edges := [.between "a" "b"]

/-- The same behind an end node out of reach, the nodes in another order. -/
def Graph.straightAmid : Graph where
  nodes := [⟨"z", ⟨0, 0⟩, .standard .transform⟩, ⟨"b", ⟨0, 0⟩, .standard .finish⟩,
    ⟨"a", ⟨0, 0⟩, .standard .start⟩]
  edges := [.between "z" "b", .between "a" "b", .between "y" "z"]

/-- Neither the node out of reach, nor the edges from there, nor the order tell in a run. -/
theorem Graph.execute_of_sameFrom_straight :
    straight.start? = straightAmid.start? ∧ straight.RunsLike straightAmid := by
  have hreached : ∀ id, straight.Reaches "a" id → id ∈ ["a", "b"] := fun id hid =>
    hid.mem_of_closed List.mem_cons_self (by decide)
  have hsame : straight.SameFrom straightAmid "a" := by
    refine ⟨fun n hn => ?_, fun id hid => ?_⟩
    · have hne : n ≠ ⟨"z", ⟨0, 0⟩, .standard .transform⟩ := by
        rintro rfl
        exact absurd (hreached _ hn) (by decide)
      simp [straight, straightAmid, hne, or_comm]
    · have hid := hreached id hid
      simp only [List.mem_cons, List.not_mem_nil, or_false] at hid
      rcases hid with rfl | rfl <;> rfl
  exact ⟨rfl, (execute_of_sameFrom (by decide) rfl rfl).1 straightAmid (by decide) rfl rfl hsame⟩

end Workflow
