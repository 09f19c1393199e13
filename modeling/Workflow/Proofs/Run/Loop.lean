import Mathlib.Data.List.Perm.Subperm
import Workflow.Proofs.Run.Walk

/-!
# Walks turn by turn

A walk is a loop: each turn takes one visit from the agenda, and puts one on it for each edge of the
node that it visits. No edge does so twice, however the graph is made and whatever the nodes
evaluate to. So the loop ends after as many turns as there are edges, and one for the root.
-/

namespace Workflow

/--
Where a loop stands between two turns: its trace, the visits that wait, and what stopped it if
something did. It counts the visits taken from the agenda, and lists the edges that put visits on
it, each by its place among the edges of the graph.
-/
structure Loop where
  trace : List TraceEntry := []
  agenda : Agenda
  error? : Option WalkError := none
  popped : Nat := 0
  pushed : List Nat := []

namespace Loop

/-- The loop that is to visit a root. -/
def start (root : String) : Loop where
  agenda := [(root, .null)]

/-- A loop is over once something stopped it, or nothing waits any more. -/
def IsOver (l : Loop) : Prop :=
  l.error? ≠ none ∨ l.agenda = []

/-- Takes the first visit from the agenda, which leaves the later ones. -/
def pop (l : Loop) (later : Agenda) : Loop :=
  { l with
    agenda := later
    popped := l.popped + 1 }

/-- Stops a loop. -/
def stop (l : Loop) (cause : WalkError) : Loop :=
  { l with error? := some cause }

/-- Leaves an entry in the trace, and puts a visit on the agenda for each of some edges. -/
def visit (l : Loop) (entry : TraceEntry) (exits : List (Edge × Nat)) : Loop :=
  { l with
    trace := l.trace ++ [entry]
    agenda := exits.map (fun exit => (exit.1.target, entry.output)) ++ l.agenda
    pushed := l.pushed ++ exits.map Prod.snd }

end Loop

/-- The edges that leave a node, in order, each with its place among all edges. -/
def Graph.exits (g : Graph) (id : String) : List (Edge × Nat) :=
  g.edges.zipIdx.filter fun exit => exit.1.source = id

/--
One turn of a loop, if it is not over. `evaluate` gives the output of a node for an input, or its
failure.
-/
def Graph.turn (g : Graph) (evaluate : Node → Value → Except NodeError Value) (clock : Nat → Int)
    (l : Loop) : Loop :=
  match l.error?, l.agenda with
  | none, (id, input) :: later =>
    match g.find? id with
    | none => (l.pop later).stop (.dangling id)
    | some n =>
      if visited l.trace n.id then (l.pop later).stop (.cycle n.id n.label)
      else
        match evaluate n input with
        | .error cause => (l.pop later).stop (.node n.id n.label n.type cause)
        | .ok output =>
          (l.pop later).visit (n.entry input output (clock l.trace.length)) (g.exits n.id)
  | _, _ => l

/-- The loop is not over: nothing stopped it, and the given visit is the first that waits. -/
def Loop.Faces (l : Loop) (id : String) (input : Value) (later : Agenda) : Prop :=
  l.error? = none ∧ l.agenda = (id, input) :: later

/-- What a turn makes of a loop, with the reason for it. -/
inductive Graph.IsTurn (g : Graph) (evaluate : Node → Value → Except NodeError Value)
    (clock : Nat → Int) (l : Loop) : Loop → Prop where
  | ended (h : l.IsOver) : IsTurn g evaluate clock l l
  | dangling {id : String} {input : Value} {later : Agenda} (h : l.Faces id input later)
      (hn : g.find? id = none) : IsTurn g evaluate clock l ((l.pop later).stop (.dangling id))
  | cycle {id : String} {input : Value} {later : Agenda} {n : Node} (h : l.Faces id input later)
      (hn : g.find? id = some n) (hv : visited l.trace n.id = true) :
      IsTurn g evaluate clock l ((l.pop later).stop (.cycle n.id n.label))
  | failure {id : String} {input : Value} {later : Agenda} {n : Node} {cause : NodeError}
      (h : l.Faces id input later) (hn : g.find? id = some n) (hv : visited l.trace n.id = false)
      (he : evaluate n input = .error cause) :
      IsTurn g evaluate clock l ((l.pop later).stop (.node n.id n.label n.type cause))
  | visit {id : String} {input output : Value} {later : Agenda} {n : Node}
      (h : l.Faces id input later) (hn : g.find? id = some n) (hv : visited l.trace n.id = false)
      (he : evaluate n input = .ok output) : IsTurn g evaluate clock l
        ((l.pop later).visit (n.entry input output (clock l.trace.length)) (g.exits n.id))

section Loop

variable {g : Graph} {evaluate : Node → Value → Except NodeError Value} {clock : Nat → Int}
  {l l' : Loop} {root : String}

/-! ### One turn -/

lemma Loop.Faces.not_isOver {id : String} {input : Value} {later : Agenda}
    (h : l.Faces id input later) : ¬l.IsOver := by
  rintro (herror | hagenda)
  · exact herror h.1
  · rw [h.2] at hagenda
    cases hagenda

lemma Graph.isTurn_turn (g : Graph) (evaluate : Node → Value → Except NodeError Value)
    (clock : Nat → Int) (l : Loop) : g.IsTurn evaluate clock l (g.turn evaluate clock l) := by
  rw [Graph.turn]
  split
  · next id input later herror hagenda =>
    have h : l.Faces id input later := ⟨herror, hagenda⟩
    cases hn : g.find? id with
    | none => exact .dangling h hn
    | some n =>
      cases hv : visited l.trace n.id with
      | true =>
        simp only [hv, if_true]
        exact .cycle h hn hv
      | false =>
        simp only [hv, Bool.false_eq_true, if_false]
        cases he : evaluate n input with
        | error cause => exact .failure h hn hv he
        | ok output => exact .visit h hn hv he
  · next hover =>
    refine .ended ?_
    cases herror : l.error? with
    | some cause => exact .inl (by simp [herror])
    | none =>
      cases hagenda : l.agenda with
      | nil => exact .inr hagenda
      | cons visit later => exact absurd hagenda (hover visit.1 visit.2 later herror)

/-- A turn of a loop that is not over takes one visit from the agenda. -/
lemma Graph.IsTurn.popped_eq (h : g.IsTurn evaluate clock l l') (hl : ¬l.IsOver) :
    l'.popped = l.popped + 1 := by
  cases h with
  | ended hover => exact absurd hover hl
  | dangling | cycle | failure | visit => rfl

lemma Graph.IsTurn.eq_of_isOver (h : g.IsTurn evaluate clock l l') (hl : l.IsOver) : l' = l := by
  cases h with
  | ended => rfl
  | dangling h | cycle h | failure h | visit h => exact absurd hl h.not_isOver

/-! ### Edges and visits -/

lemma Graph.mem_exits {id : String} {e : Edge} {place : Nat} :
    (e, place) ∈ g.exits id ↔ g.edges[place]? = some e ∧ e.source = id := by
  simp [Graph.exits, List.mem_zipIdx_iff_getElem?]

lemma Graph.nodup_exits (g : Graph) (id : String) : ((g.exits id).map Prod.snd).Nodup := by
  have hsub : ((g.exits id).map Prod.snd).Sublist (g.edges.zipIdx.map Prod.snd) :=
    List.filter_sublist.map _
  rw [List.zipIdx_map_snd] at hsub
  exact hsub.nodup List.nodup_range'

lemma Graph.map_exits (g : Graph) (id : String) (output : Value) :
    (g.exits id).map (fun exit => (exit.1.target, output)) = g.visitsFrom id output := by
  have hedges : (g.exits id).map Prod.fst = g.edgesFrom id := by
    conv_rhs => rw [Graph.edgesFrom, ← List.zipIdx_map_fst 0 g.edges, List.filter_map]
    rfl
  rw [Graph.visitsFrom, ← hedges, List.map_map]
  rfl

/--
What holds of a loop from beginning to end: the visits taken from the agenda and those that wait are
the root's and one for each edge that put one there; no edge did so twice; and each that did leaves
a node of the trace.
-/
structure Graph.Accounts (g : Graph) (l : Loop) : Prop where
  balance : l.popped + l.agenda.length = 1 + l.pushed.length
  nodup : l.pushed.Nodup
  source : ∀ place ∈ l.pushed, ∃ e, g.edges[place]? = some e ∧ e.source ∈ idsOf l.trace

lemma Graph.accounts_start (g : Graph) (root : String) : g.Accounts (.start root) :=
  ⟨rfl, List.nodup_nil, nofun⟩

lemma Graph.Accounts.stop (h : g.Accounts l) {id : String} {input : Value} {later : Agenda}
    (hagenda : l.agenda = (id, input) :: later) (cause : WalkError) :
    g.Accounts ((l.pop later).stop cause) := by
  refine ⟨?_, h.nodup, h.source⟩
  have hbalance := h.balance
  rw [hagenda, List.length_cons] at hbalance
  simp only [Loop.stop, Loop.pop]
  omega

/-- The edges of a node put visits on the agenda once only, as the node is visited once only. -/
lemma Graph.Accounts.visit (h : g.Accounts l) {id : String} {input output : Value}
    {later : Agenda} {n : Node} (hagenda : l.agenda = (id, input) :: later)
    (hv : visited l.trace n.id = false) (timestamp : Int) :
    g.Accounts ((l.pop later).visit (n.entry input output timestamp) (g.exits n.id)) := by
  refine ⟨?_, ?_, fun place hplace => ?_⟩
  · have hbalance := h.balance
    rw [hagenda, List.length_cons] at hbalance
    simp only [Loop.visit, Loop.pop, List.length_append, List.length_map]
    omega
  · refine List.nodup_append.2 ⟨h.nodup, g.nodup_exits n.id, fun place hplace place' hplace' => ?_⟩
    rintro rfl
    obtain ⟨⟨e, _⟩, hexit, rfl⟩ := List.mem_map.1 hplace'
    obtain ⟨hedge, hsource⟩ := Graph.mem_exits.1 hexit
    obtain ⟨e', hedge', hold⟩ := h.source _ hplace
    obtain rfl : e' = e := Option.some.inj (hedge'.symm.trans hedge)
    exact not_visited_iff.1 hv (hsource ▸ hold)
  · simp only [Loop.visit, Loop.pop, idsOf_append_entry]
    rcases List.mem_append.1 hplace with hplace | hplace
    · obtain ⟨e, hedge, hold⟩ := h.source place hplace
      exact ⟨e, hedge, List.mem_append_left _ hold⟩
    · obtain ⟨⟨e, _⟩, hexit, rfl⟩ := List.mem_map.1 hplace
      obtain ⟨hedge, hsource⟩ := Graph.mem_exits.1 hexit
      exact ⟨e, hedge, List.mem_append_right _ (by simp [hsource])⟩

lemma Graph.Accounts.turn (h : g.Accounts l) (hturn : g.IsTurn evaluate clock l l') :
    g.Accounts l' := by
  cases hturn with
  | ended => exact h
  | dangling hl | cycle hl | failure hl => exact h.stop hl.2 _
  | visit hl hn hv he => exact h.visit hl.2 hv _

lemma Graph.Accounts.lt_of_mem (h : g.Accounts l) {place : Nat} (hplace : place ∈ l.pushed) :
    place < g.edges.length := by
  obtain ⟨e, hedge, -⟩ := h.source place hplace
  exact (List.getElem?_eq_some_iff.1 hedge).1

/-- There are no more edges that put visits on the agenda than there are edges. -/
lemma Graph.Accounts.length_pushed_le (h : g.Accounts l) : l.pushed.length ≤ g.edges.length := by
  have hsub : l.pushed ⊆ List.range g.edges.length :=
    fun _ hplace => List.mem_range.2 (h.lt_of_mem hplace)
  simpa using (h.nodup.subperm hsub).length_le

/-! ### All turns -/

lemma Graph.accounts_turns (g : Graph) (evaluate : Node → Value → Except NodeError Value)
    (clock : Nat → Int) (root : String) (turns : Nat) :
    g.Accounts ((g.turn evaluate clock)^[turns] (.start root)) := by
  induction turns with
  | zero => exact g.accounts_start root
  | succ turns ih =>
    rw [Function.iterate_succ_apply']
    exact ih.turn (g.isTurn_turn evaluate clock _)

/-- Each turn takes a visit, until the loop is over. -/
lemma Graph.isOver_or_popped_eq (g : Graph) (evaluate : Node → Value → Except NodeError Value)
    (clock : Nat → Int) (root : String) (turns : Nat) :
    ((g.turn evaluate clock)^[turns] (.start root)).IsOver ∨
      ((g.turn evaluate clock)^[turns] (.start root)).popped = turns := by
  induction turns with
  | zero => exact .inr rfl
  | succ turns ih =>
    rw [Function.iterate_succ_apply']
    have hturn := g.isTurn_turn evaluate clock ((g.turn evaluate clock)^[turns] (.start root))
    by_cases hover : ((g.turn evaluate clock)^[turns] (.start root)).IsOver
    · exact .inl ((hturn.eq_of_isOver hover).symm ▸ hover)
    · exact .inr (by rw [hturn.popped_eq hover, ih.resolve_left hover])

/-- After as many turns as there are edges, and one, no visit can be left. -/
lemma Graph.isOver_turns (g : Graph) (evaluate : Node → Value → Except NodeError Value)
    (clock : Nat → Int) (root : String) :
    ((g.turn evaluate clock)^[1 + g.edges.length] (.start root)).IsOver := by
  rcases g.isOver_or_popped_eq evaluate clock root (1 + g.edges.length) with hover | hpopped
  · exact hover
  · have h := g.accounts_turns evaluate clock root (1 + g.edges.length)
    have hbalance := h.balance
    have hle := h.length_pushed_le
    exact .inr (List.length_eq_zero_iff.1 (by omega))

/-! ### The loop is the walk -/

/-- What a loop comes to: the walk from where it stands, unless something stopped it. -/
def Graph.outcome (g : Graph) (clock : Nat → Int) (l : Loop) : Walk :=
  match l.error? with
  | some cause => ⟨l.trace, some cause⟩
  | none => g.walk clock l.trace l.agenda

lemma Graph.outcome_turn (h : g.IsTurn Node.evaluate clock l l') :
    g.outcome clock l' = g.outcome clock l := by
  cases h with
  | ended => rfl
  | dangling h hn =>
    simp only [Graph.outcome, Loop.stop, Loop.pop, h.1, h.2, Graph.walk_dangling hn]
  | cycle h hn hv =>
    simp only [Graph.outcome, Loop.stop, Loop.pop, h.1, h.2, Graph.walk_cycle hn hv]
  | failure h hn hv he =>
    simp only [Graph.outcome, Loop.stop, Loop.pop, h.1, h.2, Graph.walk_failure hn hv he]
  | visit h hn hv he =>
    simp only [Graph.outcome, Loop.visit, Loop.pop, h.1, h.2, Graph.walk_visit hn hv he,
      Graph.map_exits, Node.entry]

lemma Graph.outcome_of_isOver (h : l.IsOver) : g.outcome clock l = ⟨l.trace, l.error?⟩ := by
  rw [Graph.outcome]
  cases herror : l.error? with
  | some cause => rfl
  | none =>
    have hagenda : l.agenda = [] := h.resolve_left fun hne => hne herror
    simp only [hagenda, Graph.walk_nil]

lemma Graph.outcome_turns (g : Graph) (clock : Nat → Int) (root : String) (turns : Nat) :
    g.outcome clock ((g.turn Node.evaluate clock)^[turns] (.start root))
      = g.walk clock [] [(root, .null)] := by
  induction turns with
  | zero => rfl
  | succ turns ih => rw [Function.iterate_succ_apply', Graph.outcome_turn (g.isTurn_turn _ _ _), ih]

end Loop

/--
On every graph the loop ends, whatever its nodes evaluate to. It never takes more visits from the
agenda than there are edges, and one, and no edge puts more than one on it. As each turn takes a
visit until the loop is over, it is over after that many turns. If nodes evaluate as they do, what
it then has come to is the walk.
-/
theorem Graph.loop_ends (g : Graph) (evaluate : Node → Value → Except NodeError Value)
    (clock : Nat → Int) (root : String) :
    (∀ turns, let l := (g.turn evaluate clock)^[turns] (.start root)
      l.popped ≤ 1 + g.edges.length ∧ l.pushed.Nodup ∧
        ∀ place ∈ l.pushed, place < g.edges.length) ∧
    ((g.turn evaluate clock)^[1 + g.edges.length] (.start root)).IsOver ∧
    let l := (g.turn Node.evaluate clock)^[1 + g.edges.length] (.start root)
    g.walk clock [] [(root, .null)] = ⟨l.trace, l.error?⟩ := by
  refine ⟨fun turns => ?_, g.isOver_turns evaluate clock root, ?_⟩
  · have h := g.accounts_turns evaluate clock root turns
    have hbalance := h.balance
    have hle := h.length_pushed_le
    exact ⟨by omega, h.nodup, fun _ hplace => h.lt_of_mem hplace⟩
  · rw [← g.outcome_turns clock root (1 + g.edges.length),
      Graph.outcome_of_isOver (g.isOver_turns Node.evaluate clock root)]

end Workflow
