import Workflow.Proofs.Graph.Reach
import Workflow.Proofs.Run.Walk

/-!
# What flows through a walk

The invariant of a walk: no node is visited twice, every visit but the first comes from an edge of
an earlier one and brings its output, and the edges of the visited nodes are exactly what was
visited and what waits on the agenda.
-/

namespace Workflow

/-- The input comes from the beginning of the walk, or along an edge from an entry of the trace. -/
def Graph.Feeds (g : Graph) (root : String) (trace : List TraceEntry) (id : String)
    (input : Value) : Prop :=
  (id = root ∧ input = .null) ∨
    ∃ entry ∈ trace, ∃ e ∈ g.edges, e.source = entry.nodeId ∧ e.target = id ∧ input = entry.output

/-- An entry of a trace is that of the first node of its id. -/
def Graph.Records (g : Graph) (entry : TraceEntry) : Prop :=
  ∃ n output timestamp, g.find? entry.nodeId = some n ∧ n.evaluate entry.input = .ok output ∧
    entry = n.entry entry.input output timestamp

/-- What holds between the trace and the agenda of a walk that began at the root. -/
structure Graph.Visiting (g : Graph) (root : String) (trace : List TraceEntry) (agenda : Agenda) :
    Prop where
  nodup : (idsOf trace).Nodup
  balance : (idsOf trace ++ agenda.map Prod.fst).Perm (root :: (idsOf trace).flatMap g.targets)
  reached : ∀ id ∈ idsOf trace, g.Reaches root id
  waiting : ∀ visit ∈ agenda, g.Feeds root trace visit.1 visit.2
  recorded : ∀ entry ∈ trace, g.Records entry
  fed : ∀ earlier entry later, trace = earlier ++ entry :: later →
    g.Feeds root earlier entry.nodeId entry.input

section Invariant

variable {g : Graph} {root id : String} {trace : List TraceEntry} {input : Value}

lemma mem_idsOf_of_mem {entry : TraceEntry} (h : entry ∈ trace) : entry.nodeId ∈ idsOf trace :=
  List.mem_map_of_mem h

/-- The output and the time that an entry records are its own. -/
lemma Graph.Records.exists_find? {entry : TraceEntry} (h : g.Records entry) :
    ∃ n, g.find? entry.nodeId = some n ∧ n.evaluate entry.input = .ok entry.output ∧
      entry = n.entry entry.input entry.output entry.timestamp := by
  obtain ⟨n, output, timestamp, hn, he, hentry⟩ := h
  have houtput : entry.output = output := congrArg TraceEntry.output hentry
  have htimestamp : entry.timestamp = timestamp := congrArg TraceEntry.timestamp hentry
  exact ⟨n, hn, houtput ▸ he, by rwa [houtput, htimestamp]⟩

lemma Graph.Feeds.append (h : g.Feeds root trace id input) (more : List TraceEntry) :
    g.Feeds root (trace ++ more) id input := by
  rcases h with h | ⟨entry, hentry, e, he⟩
  · exact .inl h
  · exact .inr ⟨entry, List.mem_append_left _ hentry, e, he⟩

/-- Whatever is fed by visited nodes is reached from the root. -/
lemma Graph.Feeds.reaches (h : g.Feeds root trace id input)
    (hreached : ∀ id ∈ idsOf trace, g.Reaches root id) : g.Reaches root id := by
  rcases h with ⟨rfl, -⟩ | ⟨entry, hentry, e, he, hsource, rfl, -⟩
  · exact .refl _
  · exact Graph.Reaches.target (hsource ▸ hreached _ (mem_idsOf_of_mem hentry)) he

lemma Graph.visiting_start (g : Graph) (root : String) :
    g.Visiting root [] [(root, .null)] where
  nodup := List.nodup_nil
  balance := by simp
  reached := by simp
  waiting := by simp [Graph.Feeds]
  recorded := by simp
  fed := by simp

/-- A trace that ends in an entry is cut at that entry or before it. -/
lemma append_singleton_eq_append_cons {α : Type} {xs earlier later : List α} {x y : α}
    (h : xs ++ [x] = earlier ++ y :: later) :
    (earlier = xs ∧ y = x ∧ later = []) ∨ ∃ later', xs = earlier ++ y :: later' := by
  rcases List.eq_nil_or_concat later with rfl | ⟨later', z, rfl⟩
  · obtain ⟨rfl, hxy⟩ := List.append_inj' h rfl
    obtain rfl : x = y := by simpa using hxy
    exact .inl ⟨rfl, rfl, rfl⟩
  · refine .inr ⟨later', ?_⟩
    rw [List.concat_eq_append, ← List.cons_append, ← List.append_assoc] at h
    exact (List.append_inj' h rfl).1

/-- A visit that succeeds keeps the invariant. -/
lemma Graph.visiting_kept (g : Graph) (clock : Nat → Int) (root : String) :
    g.KeptByVisits clock (g.Visiting root) := by
  intro trace id input later n output h hn hv he
  have hid : n.id = id := Graph.id_of_find? hn
  have hnew : n.id ∉ idsOf trace := not_visited_iff.1 hv
  have hfeeds : g.Feeds root trace n.id input := hid ▸ h.waiting (id, input) List.mem_cons_self
  refine ⟨?_, ?_, ?_, ?_, ?_, ?_⟩
  · rw [idsOf_append_entry, List.nodup_append]
    exact ⟨h.nodup, List.nodup_singleton _, fun a ha b hb => by
      rintro rfl
      exact hnew (List.mem_singleton.1 hb ▸ ha)⟩
  · -- the id of the visit moves to the trace, and the targets of its edges come to both sides
    have htargets : (g.visitsFrom n.id output).map Prod.fst = g.targets n.id := by
      simp [Graph.visitsFrom, Graph.targets, Function.comp_def]
    rw [List.perm_iff_count]
    intro a
    have hbalance := h.balance.count_eq a
    rw [List.map_cons] at hbalance
    simp only [idsOf_append_entry, List.flatMap_append, List.flatMap_singleton, List.map_append,
      htargets, List.count_append, List.count_cons, List.count_nil, ← hid] at hbalance ⊢
    omega
  · intro id' hid'
    rw [idsOf_append_entry] at hid'
    rcases List.mem_append.1 hid' with hid' | hid'
    · exact h.reached id' hid'
    · rw [List.mem_singleton.1 hid']
      exact hfeeds.reaches h.reached
  · intro visit hvisit
    rcases List.mem_append.1 hvisit with hvisit | hvisit
    · obtain ⟨e, he', rfl⟩ := List.mem_map.1 hvisit
      obtain ⟨hmem, hsource⟩ := List.mem_filter.1 he'
      exact .inr ⟨n.entry input output (clock trace.length), by simp, e, hmem,
        by simpa [Node.entry] using hsource, rfl, rfl⟩
    · exact (h.waiting visit (List.mem_cons_of_mem _ hvisit)).append _
  · intro entry hentry
    rcases List.mem_append.1 hentry with hentry | hentry
    · exact h.recorded entry hentry
    · rw [List.mem_singleton.1 hentry]
      exact ⟨n, output, clock trace.length, by simpa [Node.entry, hid] using hn, he, rfl⟩
  · intro earlier entry rest hsplit
    rcases append_singleton_eq_append_cons hsplit with ⟨rfl, rfl, rfl⟩ | ⟨rest', hrest⟩
    · exact hfeeds
    · exact h.fed earlier entry rest' hrest

/-- Where a walk from the root stops, its invariant holds. -/
theorem Graph.walk_visiting (g : Graph) (clock : Nat → Int) (root : String) :
    g.Stops (g.Visiting root) (g.walk clock [] [(root, .null)]) :=
  Graph.walk_stops (g.visiting_kept clock root) [] _ (g.visiting_start root)

end Invariant

end Workflow
