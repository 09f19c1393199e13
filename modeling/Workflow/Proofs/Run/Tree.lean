import Workflow.Proofs.Graph.Tree
import Workflow.Proofs.Run.Flow

/-!
# When a run succeeds

A run succeeds exactly if what its start node reaches is a tree of nodes that are there, and every
node of that tree has an output for the output of the node before it. It then visits each node of
the tree once and no other.
-/

namespace Workflow

/--
Nodes have the given outputs: the root for nothing, and the target of an edge that the root reaches
for the output of its source.
-/
structure Graph.Yields (g : Graph) (root : String) (output : String → Value) : Prop where
  first : ∃ n, g.find? root = some n ∧ n.evaluate .null = .ok (output root)
  next : ∀ e ∈ g.edges, g.Reaches root e.source → ∀ n, g.find? e.target = some n →
    n.evaluate (output e.source) = .ok (output e.target)

section Tree

variable {g : Graph} {root id : String} {trace : List TraceEntry} {agenda : Agenda}

/-- The visited ids have no more edges to an id than all that the root reaches. -/
lemma Graph.Visiting.count_targets_le (h : g.Visiting root trace agenda) (id : String) :
    ((idsOf trace).flatMap g.targets).count id ≤ g.inputs root id := by
  rw [Graph.count_flatMap_targets h.nodup, Graph.inputs]
  apply List.countP_mono_left
  intro e _ he
  simp only [decide_eq_true_eq] at he ⊢
  exact ⟨h.reached _ he.1, he.2⟩

/-! ### What a finished walk has visited -/

/-- Once nothing is left to visit, what the root reaches has been visited. -/
lemma Graph.Visiting.mem_iff_reaches (h : g.Visiting root trace []) :
    id ∈ idsOf trace ↔ g.Reaches root id := by
  have hmem : ∀ id, id ∈ idsOf trace ↔ id = root ∨ id ∈ (idsOf trace).flatMap g.targets := by
    intro id
    have := h.balance.mem_iff (a := id)
    simpa using this
  refine ⟨h.reached id, fun hr => ?_⟩
  refine hr.mem_of_closed ((hmem root).2 (.inl rfl)) fun e he hsource => ?_
  rw [hmem]
  exact .inr (List.mem_flatMap.2 ⟨e.source, hsource, Graph.mem_targets.2 ⟨e, he, rfl, rfl⟩⟩)

lemma Graph.Visiting.inputs_eq (h : g.Visiting root trace []) (id : String) :
    g.inputs root id + (if id = root then 1 else 0) = (idsOf trace).count id := by
  have hinputs : g.inputs root id = ((idsOf trace).flatMap g.targets).count id := by
    rw [Graph.count_flatMap_targets h.nodup, Graph.inputs]
    apply List.countP_congr
    intro e _
    simp [h.mem_iff_reaches]
  have hbalance := h.balance.count_eq id
  rw [List.map_nil, List.append_nil, List.count_cons] at hbalance
  simp only [beq_iff_eq, eq_comm (a := root)] at hbalance
  omega

/-- A finished walk has visited a tree. -/
lemma Graph.Visiting.isTree (h : g.Visiting root trace []) : g.IsTree root where
  known e he hsource := by
    have htarget : e.target ∈ idsOf trace := h.mem_iff_reaches.2 (hsource.target he)
    obtain ⟨entry, hentry, hid⟩ := List.mem_map.1 htarget
    obtain ⟨n, _, _, hn, -⟩ := h.recorded entry hentry
    exact ⟨n, Graph.mem_of_find? hn, (Graph.id_of_find? hn).trans hid⟩
  inputs_eq_one id hid hne := by
    have hcount := h.inputs_eq id
    rw [if_neg hne, List.count_eq_one_of_mem h.nodup (h.mem_iff_reaches.2 hid)] at hcount
    omega
  inputs_root := by
    have hcount := h.inputs_eq root
    have hle : (idsOf trace).count root ≤ 1 := List.nodup_iff_count_le_one.1 h.nodup root
    rw [if_pos rfl] at hcount
    omega

/-- The output that a trace has for an id. -/
def outputOf (trace : List TraceEntry) (id : String) : Value :=
  match trace.find? fun entry => entry.nodeId = id with
  | some entry => entry.output
  | none => .null

lemma outputOf_eq {entry : TraceEntry} (hnodup : (idsOf trace).Nodup) (h : entry ∈ trace) :
    outputOf trace entry.nodeId = entry.output := by
  have hfind : trace.find? (fun other => other.nodeId = entry.nodeId) = some entry := by
    cases hf : trace.find? (fun other => other.nodeId = entry.nodeId) with
    | none => simpa using List.find?_eq_none.1 hf entry h
    | some other =>
      have hid : other.nodeId = entry.nodeId := by simpa using List.find?_some hf
      rw [List.inj_on_of_nodup_map hnodup (List.mem_of_find?_eq_some hf) h hid]
  rw [outputOf, hfind]

/-- In a finished walk each edge of a visited node has brought its output to the node behind it. -/
lemma Graph.Visiting.exists_fed (h : g.Visiting root trace []) {entry : TraceEntry}
    (hentry : entry ∈ trace) {e : Edge} (hmem : e ∈ g.edges) (hsource : e.source = entry.nodeId) :
    ∃ other ∈ trace, other.nodeId = e.target ∧ other.input = entry.output := by
  have hreach : g.Reaches root e.source := hsource ▸ h.reached _ (mem_idsOf_of_mem hentry)
  obtain ⟨other, hother, hid⟩ := List.mem_map.1 (h.mem_iff_reaches.2 (hreach.target hmem))
  obtain ⟨earlier, later, hsplit⟩ := List.append_of_mem hother
  refine ⟨other, hother, hid, ?_⟩
  rcases h.fed earlier other later hsplit with
    ⟨hroot, -⟩ | ⟨before, hbefore, e', hmem', hs, ht, hin⟩
  · exact absurd (hid.symm.trans hroot) (h.isTree.target_ne_root hmem hreach)
  · -- the entry was fed by an edge to the same id, and in a tree there is only one
    have hbefore' : before ∈ trace := hsplit ▸ List.mem_append_left _ hbefore
    have hreach' : g.Reaches root e'.source := hs ▸ h.reached _ (mem_idsOf_of_mem hbefore')
    obtain rfl := h.isTree.edge_unique hmem hmem' hreach hreach' (ht.trans hid)
    rw [hin, List.inj_on_of_nodup_map h.nodup hbefore' hentry (hs.symm.trans hsource)]

/-- A finished walk leaves the outputs of the nodes in its trace. -/
lemma Graph.Visiting.yields (h : g.Visiting root trace []) :
    g.Yields root (outputOf trace) where
  first := by
    obtain ⟨entry, hentry, hid⟩ := List.mem_map.1 (h.mem_iff_reaches.2 (.refl root))
    obtain ⟨n, hn, he, -⟩ := (h.recorded entry hentry).exists_find?
    obtain ⟨earlier, later, hsplit⟩ := List.append_of_mem hentry
    refine ⟨n, hid ▸ hn, ?_⟩
    rw [← hid, outputOf_eq h.nodup hentry]
    rcases h.fed earlier entry later hsplit with ⟨-, hinput⟩ | ⟨before, hbefore, e, hmem, hs, ht, -⟩
    · rw [← hinput]
      exact he
    · have hreach : g.Reaches root e.source :=
        hs ▸ h.reached _ (mem_idsOf_of_mem (hsplit ▸ List.mem_append_left _ hbefore))
      exact absurd (ht.trans hid) (h.isTree.target_ne_root hmem hreach)
  next e hmem hsource n hn := by
    obtain ⟨before, hbefore, hid⟩ := List.mem_map.1 (h.mem_iff_reaches.2 hsource)
    obtain ⟨entry, hentry, htarget, hinput⟩ := h.exists_fed hbefore hmem hid.symm
    obtain ⟨m, hm, he, -⟩ := (h.recorded entry hentry).exists_find?
    obtain rfl : n = m := by
      rw [htarget, hn] at hm
      exact Option.some.inj hm
    rw [← hid, ← htarget, outputOf_eq h.nodup hentry, outputOf_eq h.nodup hbefore, ← hinput]
    exact he

/-! ### What a walk does in a tree -/

variable {output : String → Value}

/-- What is fed by visited nodes with their outputs has its own output. -/
lemma Graph.Yields.evaluate_of_feeds (hy : g.Yields root output)
    (hreached : ∀ id ∈ idsOf trace, g.Reaches root id)
    (houtput : ∀ entry ∈ trace, entry.output = output entry.nodeId) {input : Value} {n : Node}
    (h : g.Feeds root trace id input) (hn : g.find? id = some n) :
    n.evaluate input = .ok (output id) := by
  rcases h with ⟨rfl, rfl⟩ | ⟨entry, hentry, e, hmem, hsource, rfl, rfl⟩
  · obtain ⟨m, hm, he⟩ := hy.first
    obtain rfl : n = m := Option.some.inj (hn.symm.trans hm)
    exact he
  · rw [houtput entry hentry, ← hsource]
    exact hy.next e hmem (hsource ▸ hreached _ (mem_idsOf_of_mem hentry)) n hn

/-- The entries of a trace have the outputs of their nodes, by induction along the trace. -/
lemma Graph.Visiting.output_eq (h : g.Visiting root trace agenda) (hy : g.Yields root output) :
    ∀ entry ∈ trace, entry.output = output entry.nodeId := by
  have hprefix : ∀ earlier later, trace = earlier ++ later →
      ∀ entry ∈ earlier, entry.output = output entry.nodeId := by
    intro earlier
    induction earlier using List.reverseRecOn with
    | nil => simp
    | append_singleton earlier entry ih =>
      intro later hsplit
      have hsplit' : trace = earlier ++ entry :: later := by simp [hsplit]
      have hearlier := ih (entry :: later) hsplit'
      have hreached : ∀ id ∈ idsOf earlier, g.Reaches root id := by
        intro id hid
        apply h.reached
        rw [hsplit', idsOf, List.map_append]
        exact List.mem_append_left _ hid
      obtain ⟨n, hn, he, -⟩ := (h.recorded entry (hsplit' ▸ by simp)).exists_find?
      have hout := hy.evaluate_of_feeds hreached hearlier (h.fed earlier entry later hsplit') hn
      have hlast : entry.output = output entry.nodeId := Except.ok.inj (he.symm.trans hout)
      intro other hother
      rcases List.mem_append.1 hother with hother | hother
      · exact hearlier other hother
      · rw [List.mem_singleton.1 hother]
        exact hlast
  exact hprefix trace [] (by simp)

/-- In a tree nothing waits that was visited: that takes two edges to it, or one to the root. -/
lemma Graph.Visiting.not_mem_of_waiting {input : Value} {later : Agenda}
    (h : g.Visiting root trace ((id, input) :: later)) (htree : g.IsTree root) :
    id ∉ idsOf trace := by
  intro hid
  have hbalance := h.balance.count_eq id
  have hle := h.count_targets_le id
  have hpos : 0 < (idsOf trace).count id := List.count_pos_iff.2 hid
  rw [List.count_append, List.map_cons, List.count_cons_self, List.count_cons] at hbalance
  by_cases hroot : id = root
  · rw [hroot] at hbalance hle hpos
    rw [htree.inputs_root] at hle
    simp only [beq_self_eq_true, if_true] at hbalance
    omega
  · rw [htree.inputs_eq_one id (h.reached id hid) hroot] at hle
    simp only [beq_iff_eq, Ne.symm hroot, if_false] at hbalance
    omega

/-- In a tree whose root is known, all that waits is known. -/
lemma Graph.Visiting.find?_ne_none_of_waiting {input : Value} {later : Agenda}
    (h : g.Visiting root trace ((id, input) :: later)) (htree : g.IsTree root)
    (hroot : ∃ n ∈ g.nodes, n.id = root) : g.find? id ≠ none := by
  intro hnone
  rw [Graph.find?_eq_none_iff] at hnone
  rcases h.waiting _ List.mem_cons_self with ⟨rfl, -⟩ | ⟨entry, hentry, e, hmem, hs, rfl, -⟩
  · obtain ⟨n, hn, hid⟩ := hroot
    exact hnone n hn hid
  · obtain ⟨n, hn, hid⟩ := htree.known e hmem (hs ▸ h.reached _ (mem_idsOf_of_mem hentry))
    exact hnone n hn hid

/-- In a tree a walk stops only at its end, or at a node that fails. -/
lemma Graph.Stops.finished_or_failure {walk : Walk} (h : g.Stops (g.Visiting root) walk)
    (htree : g.IsTree root) (hroot : ∃ n ∈ g.nodes, n.id = root) :
    (∃ trace, g.Visiting root trace [] ∧ walk = ⟨trace, none⟩) ∨
      ∃ trace id input later n cause, g.Visiting root trace ((id, input) :: later) ∧
        g.find? id = some n ∧ n.evaluate input = .error cause ∧
        walk = ⟨trace, some (.node n.id n.label n.type cause)⟩ := by
  cases h with
  | finished h => exact .inl ⟨_, h, rfl⟩
  | dangling h hn => exact absurd hn (h.find?_ne_none_of_waiting htree hroot)
  | cycle h hn hv =>
    exact absurd (Graph.id_of_find? hn ▸ visited_iff.1 hv) (h.not_mem_of_waiting htree)
  | failure h hn hv he => exact .inr ⟨_, _, _, _, _, _, h, hn, he, rfl⟩

/-- In a tree whose nodes all have outputs, a walk comes to its end. -/
lemma Graph.Stops.error?_eq_none {walk : Walk} (h : g.Stops (g.Visiting root) walk)
    (htree : g.IsTree root) (hy : g.Yields root output) : walk.error? = none := by
  obtain ⟨n, hroot, -⟩ := hy.first
  have hknown : ∃ n ∈ g.nodes, n.id = root :=
    ⟨n, Graph.mem_of_find? hroot, Graph.id_of_find? hroot⟩
  rcases h.finished_or_failure htree hknown with
    ⟨trace, -, rfl⟩ | ⟨trace, id, input, later, n, cause, h, hn, he, -⟩
  · rfl
  · have hfeeds := h.waiting _ List.mem_cons_self
    have hout := hy.evaluate_of_feeds h.reached (h.output_eq hy) hfeeds hn
    rw [he] at hout
    cases hout

/-- A walk from the root comes to its end exactly in a tree whose nodes all have outputs. -/
lemma Graph.walk_error?_eq_none_iff (g : Graph) (clock : Nat → Int) (root : String) :
    (g.walk clock [] [(root, .null)]).error? = none
      ↔ g.IsTree root ∧ ∃ output, g.Yields root output := by
  have hstops := g.walk_visiting clock root
  constructor
  · intro hnone
    generalize g.walk clock [] [(root, .null)] = walk at hstops hnone
    cases hstops with
    | finished h => exact ⟨h.isTree, _, h.yields⟩
    | dangling | cycle | failure => cases hnone
  · rintro ⟨htree, output, hy⟩
    exact hstops.error?_eq_none htree hy

/-- A walk that comes to its end has visited exactly what the root reaches, each id once. -/
lemma Graph.walk_ids (g : Graph) (clock : Nat → Int) (root : String)
    (hnone : (g.walk clock [] [(root, .null)]).error? = none) :
    (idsOf (g.walk clock [] [(root, .null)]).trace).Nodup ∧
      ∀ id, id ∈ idsOf (g.walk clock [] [(root, .null)]).trace ↔ g.Reaches root id := by
  have hstops := g.walk_visiting clock root
  generalize g.walk clock [] [(root, .null)] = walk at hstops hnone
  cases hstops with
  | finished h => exact ⟨h.nodup, fun id => h.mem_iff_reaches⟩
  | dangling | cycle | failure => cases hnone

end Tree

/-! ### Runs -/

lemma Graph.canExecute_iff {g : Graph} :
    g.canExecute = true ↔ (∃ start, g.start? = some start) ∧ g.hasEnd = true := by
  simp only [Graph.canExecute, Bool.and_eq_true, decide_eq_true_eq, Option.isSome_iff_exists]
  refine ⟨fun h => h.1, fun h => ⟨h, ?_⟩⟩
  obtain ⟨⟨start, hs⟩, he⟩ := h
  -- the start node and an end node are two, as they differ in their types
  obtain ⟨last, hlast, htype⟩ := List.any_eq_true.1 he
  have hstart : start ∈ g.nodes := List.mem_of_find?_eq_some hs
  have htype' : start.type = .start := by simpa using List.find?_some hs
  have hne : start ≠ last := by
    rintro rfl
    simp [htype'] at htype
  cases hnodes : g.nodes with
  | nil => simp [hnodes] at hstart
  | cons a rest =>
    cases rest with
    | nil =>
      rw [hnodes, List.mem_singleton] at hstart hlast
      exact absurd (hstart.trans hlast.symm) hne
    | cons b rest => simp

/-- A run that may not begin leaves no trace, and its error is of no walk. -/
lemma Graph.execute_of_not_canExecute {g : Graph} (clock : Nat → Int)
    (hcannot : g.canExecute = false) :
    ∃ e, g.execute clock = ⟨[], some e⟩ ∧ ∀ cause last, e ≠ .stopped cause last := by
  rw [← Bool.not_eq_true, Graph.canExecute_iff] at hcannot
  rw [Graph.execute]
  split
  · exact ⟨_, rfl, by simp⟩
  · split
    · exact ⟨_, rfl, by simp⟩
    · next start hs =>
      have hend : g.hasEnd = false := by
        rw [← Bool.not_eq_true]
        exact fun hend => hcannot ⟨⟨start, hs⟩, hend⟩
      simp only [hend, Bool.not_false, if_true]
      exact ⟨_, rfl, by simp⟩

/-- Before it begins a run fails exactly if it may not begin. -/
lemma Graph.execute_fails_bare_iff (g : Graph) (clock : Nat → Int) :
    (∃ e, (g.execute clock).error? = some e ∧ ∀ cause last, e ≠ .stopped cause last)
      ↔ g.canExecute = false := by
  constructor
  · rintro ⟨e, he, hbare⟩
    rw [← Bool.not_eq_true, Graph.canExecute_iff]
    rintro ⟨⟨start, hs⟩, hend⟩
    rw [Graph.execute_of_begins clock hs hend] at he
    obtain ⟨cause, -, hcause⟩ := Option.map_eq_some_iff.1 he
    exact hbare _ _ hcause.symm
  · intro hcannot
    obtain ⟨e, hrun, hbare⟩ := Graph.execute_of_not_canExecute clock hcannot
    exact ⟨e, by rw [hrun], hbare⟩

/--
A run fails before it begins exactly if it may not begin. Otherwise it succeeds exactly if the start
node's id reaches a tree whose nodes all have outputs, and then its trace has each id of that tree
once and no other.
-/
theorem Graph.execute_succeeds_iff (g : Graph) (clock : Nat → Int) :
    ((∃ e, (g.execute clock).error? = some e ∧ ∀ cause last, e ≠ .stopped cause last)
      ↔ g.canExecute = false) ∧
    (g.canExecute = true → ∃ start, g.start? = some start ∧
      ((g.execute clock).error? = none
        ↔ g.IsTree start.id ∧ ∃ output, g.Yields start.id output) ∧
      ((g.execute clock).error? = none →
        (∀ id, g.Reaches start.id id → (idsOf (g.execute clock).trace).count id = 1) ∧
        ∀ id ∈ idsOf (g.execute clock).trace, g.Reaches start.id id)) := by
  refine ⟨g.execute_fails_bare_iff clock, fun hcan => ?_⟩
  obtain ⟨⟨start, hs⟩, he⟩ := Graph.canExecute_iff.1 hcan
  refine ⟨start, hs, ?_⟩
  rw [Graph.execute_of_begins clock hs he, Option.map_eq_none_iff]
  refine ⟨g.walk_error?_eq_none_iff clock start.id, fun hnone => ?_⟩
  obtain ⟨hnodup, hmem⟩ := g.walk_ids clock start.id hnone
  exact ⟨fun id hid => List.count_eq_one_of_mem hnodup ((hmem id).2 hid),
    fun id hid => (hmem id).1 hid⟩

end Workflow
