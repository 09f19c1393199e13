import Workflow.Proofs.Graph.Circle
import Workflow.Proofs.Run.Recursion
import Workflow.Proofs.Run.Tree

/-!
# Nodes that are reached a second time

A run that reaches a node a second time has come to it from itself, along a cycle, or has come to it
from elsewhere after everything behind it was visited. In the second case the node is on no cycle at
all, but is a join: at least two edges lead to it. Of either case a problem of the graph tells.
-/

namespace Workflow

/-! ### Open and finished ids -/

/-- Ids whose edges lead to each other only, and none of them back to itself. -/
structure Graph.IsFinished (g : Graph) (ids : List String) : Prop where
  closed : ∀ e ∈ g.edges, e.source ∈ ids → e.target ∈ ids
  acyclic : ∀ id ∈ ids, ¬g.LeadsTo id id

/-- A recursion that goes on. What it marked is still open, or finished with all that follows. -/
structure Graph.Divides (g : Graph) (d : Descent) (opened finished : List String) : Prop where
  going : d.error? = none
  marked_iff : ∀ id, id ∈ d.marked ↔ id ∈ opened ∨ id ∈ finished
  nodup : opened.Nodup
  disjoint : ∀ id ∈ opened, id ∉ finished
  isFinished : g.IsFinished finished

/-- An id that is reached a second time is on a cycle, or does not lead back to itself at all. -/
def Graph.Recurs (g : Graph) (error? : Option WalkError) : Prop :=
  ∀ id label, error? = some (.cycle id label) → g.Circles id ∨ ¬g.LeadsTo id id

section Recursion

variable {g : Graph} {clock : Nat → Int} {d d' : Descent} {opened finished ids : List String}
  {id : String} {n : Node} {input : Value}

/-- An open id whose targets are all finished is finished too. -/
lemma Graph.IsFinished.cons (h : g.IsFinished finished) (hid : id ∉ finished)
    (htargets : g.targets id ⊆ finished) : g.IsFinished (id :: finished) := by
  have hclosed : ∀ e ∈ g.edges, e.source ∈ id :: finished → e.target ∈ finished := by
    intro e he hsource
    rcases List.mem_cons.1 hsource with heq | hmem
    · exact htargets (Graph.mem_targets.2 ⟨e, he, heq, rfl⟩)
    · exact h.closed e he hmem
  refine ⟨fun e he hsource => List.mem_cons_of_mem _ (hclosed e he hsource), fun a ha hback => ?_⟩
  rcases List.mem_cons.1 ha with rfl | hmem
  · -- the way back begins with a step to a finished id, and so it ends at one
    obtain ⟨b, hstep, hway⟩ := Relation.TransGen.head'_iff.1 hback
    exact hid (Graph.Reaches.mem_of_closed (htargets hstep) h.closed hway)
  · exact h.acyclic a hmem hback

lemma Graph.Divides.log (h : g.Divides d opened finished) (hn : n.id ∉ d.marked)
    (input output : Value) (timestamp : Int) :
    g.Divides (d.log n input output timestamp) (n.id :: opened) finished where
  going := h.going
  marked_iff a := by
    simp only [Descent.log, List.mem_cons, h.marked_iff, or_assoc]
  nodup := List.nodup_cons.2 ⟨fun hopened => hn ((h.marked_iff _).2 (.inl hopened)), h.nodup⟩
  disjoint a ha := by
    rcases List.mem_cons.1 ha with rfl | hmem
    · exact fun hfinished => hn ((h.marked_iff _).2 (.inr hfinished))
    · exact h.disjoint a hmem
  isFinished := h.isFinished

/-- The innermost of the open ids is finished once its targets are. -/
lemma Graph.Divides.finish (h : g.Divides d (id :: opened) finished)
    (htargets : g.targets id ⊆ finished) : g.Divides d opened (id :: finished) := by
  obtain ⟨hid, hnodup⟩ := List.nodup_cons.1 h.nodup
  refine ⟨h.going, fun a => ?_, hnodup, fun a ha => ?_,
    h.isFinished.cons (h.disjoint id List.mem_cons_self) htargets⟩
  · rw [h.marked_iff, List.mem_cons, List.mem_cons, or_assoc, or_left_comm]
  · rw [List.mem_cons, not_or]
    exact ⟨fun heq => hid (heq ▸ ha), h.disjoint a (List.mem_cons_of_mem _ ha)⟩

/-- What is marked already is open, so that steps lead back to it, or finished. -/
lemma Graph.Divides.recurs (h : g.Divides d opened finished) (hid : id ∈ d.marked)
    (hknown : id ∈ g.ids)
    (hopened : ∀ a ∈ opened, ∃ b, Within g.targets g.ids a b ∧ id ∈ g.targets b) :
    g.Circles id ∨ ¬g.LeadsTo id id := by
  rcases (h.marked_iff id).1 hid with hmem | hmem
  · obtain ⟨b, hway, hstep⟩ := hopened id hmem
    exact .inl (Relation.TransGen.tail' hway ⟨hstep, hknown⟩)
  · exact .inr (h.isFinished.acyclic id hmem)

/-! ### The recursion -/

/-- What a recursion comes to that visits ids: they are finished then, unless it stopped. -/
structure Graph.Finishes (g : Graph) (opened finished ids : List String) (d' : Descent) :
    Prop where
  recurs : g.Recurs d'.error?
  divides : d'.error? = none →
    ∃ finished', finished ⊆ finished' ∧ ids ⊆ finished' ∧ g.Divides d' opened finished'

lemma Graph.Finishes.of_stop {error : WalkError} (herror : d'.error? = some error)
    (h : ∀ id label, error = .cycle id label → g.Circles id ∨ ¬g.LeadsTo id id) :
    g.Finishes opened finished ids d' where
  recurs id label heq := h id label (Option.some.inj (herror.symm.trans heq))
  divides hnone := by simp [herror] at hnone

/-- What is marked already stops the recursion, as it should. -/
lemma Graph.Divides.finishes_marked (h : g.Divides d opened finished) (hn : g.find? id = some n)
    (hm : n.id ∈ d.marked)
    (hopened : ∀ a ∈ opened, ∃ b, Within g.targets g.ids a b ∧ id ∈ g.targets b) :
    g.Finishes opened finished [id] (g.visit clock d id input).1 := by
  obtain rfl : n.id = id := Graph.id_of_find? hn
  have hknown : n.id ∈ g.ids := Graph.mem_ids.2 ⟨n, Graph.mem_of_find? hn, rfl⟩
  rw [Graph.visit_marked hn hm]
  refine .of_stop rfl fun id' label heq => ?_
  obtain ⟨rfl, -⟩ := WalkError.cycle.inj heq
  exact h.recurs hm hknown hopened

/-- A node is open while its targets are visited, and finished thereafter. -/
lemma Graph.Finishes.visit_node {output : Value} (hn : g.find? id = some n) (hm : n.id ∉ d.marked)
    (he : n.evaluate input = .ok output)
    (h : g.Finishes (n.id :: opened) finished (g.targets n.id)
      (g.visitEach clock (d.log n input output (clock d.trace.length)) (g.targets n.id)
        output).1) :
    g.Finishes opened finished [id] (g.visit clock d id input).1 := by
  obtain rfl : n.id = id := Graph.id_of_find? hn
  rw [Graph.visit_success hn hm he]
  refine ⟨h.recurs, fun hnone => ?_⟩
  obtain ⟨finished', hsub, htargets, hdivides⟩ := h.divides hnone
  exact ⟨n.id :: finished', List.subset_cons_of_subset _ hsub,
    List.cons_subset.2 ⟨List.mem_cons_self, List.nil_subset _⟩, hdivides.finish htargets⟩

/-- The first id is visited, and then the others with what is finished by then. -/
lemma Graph.Finishes.visitEach_cons
    (h : g.Finishes opened finished [id] (g.visit clock d id input).1)
    (h' : ∀ finished', g.Divides (g.visit clock d id input).1 opened finished' →
      g.Finishes opened finished' ids
        (g.visitEach clock (g.visit clock d id input).1 ids input).1) :
    g.Finishes opened finished (id :: ids) (g.visitEach clock d (id :: ids) input).1 := by
  cases herror : (g.visit clock d id input).1.error? with
  | some error =>
    rw [Graph.visitEach_stop herror]
    exact ⟨h.recurs, fun hnone => by simp [herror] at hnone⟩
  | none =>
    rw [Graph.visitEach_go herror]
    obtain ⟨finished', hsub, hid, hdivides⟩ := h.divides herror
    have hothers := h' finished' hdivides
    refine ⟨hothers.recurs, fun hnone => ?_⟩
    obtain ⟨finished'', hsub', hids, hdivides'⟩ := hothers.divides hnone
    exact ⟨finished'', List.Subset.trans hsub hsub',
      List.cons_subset.2 ⟨hsub' (hid List.mem_cons_self), hids⟩, hdivides'⟩

/--
A recursion finishes the ids that it visits, and as long as steps lead from every open id to what it
visits, it comes to a node a second time only as it should. By induction on the recursion.
-/
lemma Graph.visit_finishes (g : Graph) (clock : Nat → Int) :
    (∀ (d : Descent) (id : String) (input : Value), ∀ opened finished,
      g.Divides d opened finished →
      (∀ a ∈ opened, ∃ b, Within g.targets g.ids a b ∧ id ∈ g.targets b) →
      g.Finishes opened finished [id] (g.visit clock d id input).1) ∧
    ∀ (d : Descent) (ids : List String) (input : Value), ∀ opened finished source,
      g.Divides d opened finished → ids ⊆ g.targets source →
      (∀ a ∈ opened, Within g.targets g.ids a source) →
      g.Finishes opened finished ids (g.visitEach clock d ids input).1 := by
  apply Graph.visit.mutual_induct g clock
  · intro d id input hn opened finished _ _
    rw [Graph.visit_unknown hn]
    refine .of_stop rfl fun id' label heq => ?_
    cases heq
  · intro d id input n hn hm opened finished h hopened
    exact h.finishes_marked hn hm hopened
  · intro d id input n hn hm cause he opened finished _ _
    rw [Graph.visit_failure hn hm he]
    refine .of_stop rfl fun id' label heq => ?_
    cases heq
  · intro d id input n hn hm output he ih opened finished h hopened
    refine .visit_node hn hm he (ih (n.id :: opened) finished n.id (h.log hm _ _ _)
      (List.Subset.refl _) fun a ha => ?_)
    rcases List.mem_cons.1 ha with rfl | hmem
    · exact .refl
    · obtain ⟨b, hway, hstep⟩ := hopened a hmem
      have hknown : n.id ∈ g.ids := Graph.mem_ids.2 ⟨n, Graph.mem_of_find? hn, rfl⟩
      exact hway.tail ⟨Graph.id_of_find? hn ▸ hstep, hknown⟩
  · intro d input opened finished source h _ _
    rw [Graph.visitEach_nil]
    refine ⟨fun id label heq => ?_, fun _ => ⟨finished, List.Subset.refl _, List.nil_subset _, h⟩⟩
    rw [h.going] at heq
    cases heq
  · intro d input id ids d' hsub hr e he ih opened finished source h hids hopened
    have hid : id ∈ g.targets source := hids List.mem_cons_self
    refine .visitEach_cons (ih opened finished h fun a ha => ⟨source, hopened a ha, hid⟩) ?_
    intro finished' hdivides
    rw [hr] at hdivides
    cases hdivides.going.symm.trans he
  · intro d input id ids d' hsub hr he ih ih' opened finished source h hids hopened
    obtain ⟨hid, hids⟩ := List.cons_subset.1 hids
    refine .visitEach_cons (ih opened finished h fun a ha => ⟨source, hopened a ha, hid⟩) ?_
    intro finished' hdivides
    rw [hr] at hdivides ⊢
    exact ih' opened finished' source hdivides hids hopened

/-- A walk comes to a node a second time along a cycle, or after all that is behind it. -/
lemma Graph.walk_recurs (g : Graph) (clock : Nat → Int) (root : String) :
    g.Recurs (g.walk clock [] [(root, .null)]).error? := by
  rw [Graph.walk_eq_descend]
  have hbegin : g.Divides {} [] [] := ⟨rfl, by simp, List.nodup_nil, nofun, nofun, nofun⟩
  exact ((g.visit_finishes clock).1 {} root .null [] [] hbegin nofun).recurs

/-! ### Joins -/

/-- What waits a second time is the root, which leads back to itself, or has two inputs. -/
lemma Graph.Visiting.twice {root : String} {trace : List TraceEntry} {input : Value}
    {later : Agenda} (h : g.Visiting root trace ((id, input) :: later)) (hid : id ∈ idsOf trace) :
    g.LeadsTo id id ∨ 2 ≤ g.inputs root id := by
  have hbalance := h.balance.count_eq id
  have hle := h.count_targets_le id
  have hpos : 0 < (idsOf trace).count id := List.count_pos_iff.2 hid
  rw [List.count_append, List.map_cons, List.count_cons_self, List.count_cons] at hbalance
  by_cases hroot : id = root
  · subst hroot
    have hinput : 0 < g.inputs id id := by
      simp only [beq_self_eq_true, if_true] at hbalance
      omega
    obtain ⟨e, he, hinto⟩ := List.countP_pos_iff.1 hinput
    obtain ⟨hsource, htarget⟩ : g.Reaches id e.source ∧ e.target = id := by simpa using hinto
    exact .inl (Relation.TransGen.tail' hsource (Graph.mem_targets.2 ⟨e, he, rfl, htarget⟩))
  · simp only [beq_iff_eq, Ne.symm hroot, if_false] at hbalance
    exact .inr (by omega)

lemma Graph.Stops.twice {root label : String} {walk : Walk} (h : g.Stops (g.Visiting root) walk)
    (herror : walk.error? = some (.cycle id label)) : g.LeadsTo id id ∨ 2 ≤ g.inputs root id := by
  cases h with
  | cycle h hn hv =>
    obtain ⟨rfl, -⟩ := WalkError.cycle.inj (Option.some.inj herror)
    exact (Graph.id_of_find? hn ▸ h).twice (visited_iff.1 hv)
  | finished | dangling | failure => cases herror

/-- Of an id with two inputs a problem tells. -/
lemma Graph.exists_manyInputs {root : String} (h : 2 ≤ g.inputs root id) :
    ∃ count, 2 ≤ count ∧ Problem.manyInputs id count ∈ g.problems := by
  have hcount : 2 ≤ (g.edges.map Edge.target).count id := by
    rw [Graph.count_map_target]
    refine h.trans (List.countP_mono_left fun e _ he => ?_)
    simp only [decide_eq_true_eq] at he ⊢
    exact he.2
  have hmem : id ∈ (g.edges.map Edge.target).eraseDups :=
    List.mem_eraseDups.2 (List.count_pos_iff.1 (by omega))
  have hproblem : Problem.manyInputs id ((g.edges.map Edge.target).count id) ∈ g.inputProblems :=
    List.mem_filterMap.2 ⟨id, hmem, if_pos hcount⟩
  refine ⟨_, hcount, ?_⟩
  rw [Graph.problems_eq, Graph.breaches]
  exact List.mem_append_left _ (List.mem_append_right _ hproblem)

end Recursion

/-! ### Runs -/

/--
A run that fails as it reaches a node a second time has one of two reasons, and a problem of the
graph tells of it. The node is on a cycle of nodes that are there, and the graph has a problem that
tells of a cycle. Or nothing leads from the node back to itself, but it is a join: from what the
start node reaches two edges at least lead to it, and the graph has the problem that tells of them.
-/
theorem Graph.execute_recurs {g : Graph} {clock : Nat → Int} {id label : String}
    {last : Option TraceEntry}
    (h : (g.execute clock).error? = some (.stopped (.cycle id label) last)) :
    (g.Circles id ∧ ∃ ids, Problem.cycle ids ∈ g.problems) ∨
      (¬g.LeadsTo id id ∧ ∃ start, g.start? = some start ∧ 2 ≤ g.inputs start.id id ∧
        ∃ count, 2 ≤ count ∧ Problem.manyInputs id count ∈ g.problems) := by
  have hcan : g.canExecute = true := by
    rw [← Bool.not_eq_false, ← g.execute_fails_bare_iff clock]
    rintro ⟨e, he, hbare⟩
    rw [h] at he
    exact hbare _ _ (Option.some.inj he).symm
  obtain ⟨⟨start, hs⟩, hend⟩ := Graph.canExecute_iff.1 hcan
  rw [Graph.execute_of_begins clock hs hend] at h
  obtain ⟨cause, hwalk, hcause⟩ := Option.map_eq_some_iff.1 h
  obtain ⟨rfl, -⟩ := RunError.stopped.inj hcause
  rcases g.walk_recurs clock start.id id label hwalk with hcircles | hacyclic
  · exact .inl ⟨hcircles, hcircles.exists_problem⟩
  · have hinputs := ((g.walk_visiting clock start.id).twice hwalk).resolve_left hacyclic
    exact .inr ⟨hacyclic, start, hs, hinputs, Graph.exists_manyInputs hinputs⟩

/-- Two branches from a start node that come together in an end node. -/
def Graph.diamond : Graph where
  nodes := [⟨"a", ⟨0, 0⟩, .start { label := "Start", payload := "1" }⟩,
    ⟨"b", ⟨0, 0⟩, .standard .transform⟩, ⟨"c", ⟨0, 0⟩, .standard .transform⟩,
    ⟨"d", ⟨0, 0⟩, .standard .finish⟩]
  edges := [.between "a" "b", .between "a" "c", .between "b" "d", .between "c" "d"]

/-- The run fails where the branches come together, although no way leads back from there. -/
theorem Graph.execute_recurs_diamond :
    ∃ last, (Graph.diamond.execute fun _ => 0).error? = some (.stopped (.cycle "d" "End") last) ∧
      ¬Graph.diamond.LeadsTo "d" "d" ∧
      ∃ count, 2 ≤ count ∧ Problem.manyInputs "d" count ∈ Graph.diamond.problems := by
  let a : Node := ⟨"a", ⟨0, 0⟩, .start { label := "Start", payload := "1" }⟩
  have ha : a.evaluate .null = .ok (.int 1) := rfl
  have hpass : ∀ id, (⟨id, ⟨0, 0⟩, .standard .transform⟩ : Node).evaluate (.int 1)
      = .ok (.int 1) := fun _ => rfl
  have hd : (⟨"d", ⟨0, 0⟩, .standard .finish⟩ : Node).evaluate (.int 1) = .ok (.int 1) := rfl
  have hrun : (Graph.diamond.walk (fun _ => 0) [] [("a", .null)]).error?
      = some (.cycle "d" "End") := by
    rw [Graph.walk_visit rfl rfl ha,
      show Graph.diamond.visitsFrom "a" (.int 1) ++ [] = [("b", .int 1), ("c", .int 1)] from rfl,
      Graph.walk_visit rfl rfl (hpass "b"),
      show Graph.diamond.visitsFrom "b" (.int 1) ++ _ = [("d", .int 1), ("c", .int 1)] from rfl,
      Graph.walk_visit rfl rfl hd,
      show Graph.diamond.visitsFrom "d" (.int 1) ++ _ = [("c", .int 1)] from rfl,
      Graph.walk_visit rfl rfl (hpass "c"),
      show Graph.diamond.visitsFrom "c" (.int 1) ++ _ = [("d", .int 1)] from rfl,
      Graph.walk_cycle rfl rfl]
    rfl
  have hacyclic : ¬Graph.diamond.LeadsTo "d" "d" := by
    intro hback
    obtain ⟨e, he, hsource⟩ := hback.first
    revert e
    decide
  obtain ⟨last, hfails⟩ : ∃ last, (Graph.diamond.execute fun _ => 0).error?
      = some (.stopped (.cycle "d" "End") last) := by
    rw [Graph.execute_of_begins _ rfl rfl]
    exact ⟨_, Option.map_eq_some_iff.2 ⟨_, hrun, rfl⟩⟩
  obtain ⟨hcircles, -⟩ | ⟨-, -, -, -, hproblem⟩ := Graph.execute_recurs hfails
  · exact absurd hcircles.leadsTo hacyclic
  · exact ⟨last, hfails, hacyclic, hproblem⟩

end Workflow
