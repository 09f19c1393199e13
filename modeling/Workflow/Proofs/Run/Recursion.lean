import Workflow.Graph.Reach
import Workflow.Proofs.Run.Walk

/-!
# Walks and recursion

A node can be visited by recursion: it is marked, evaluated and logged, and then the nodes that its
edges lead to are visited one after the other with its output. The walk keeps an agenda in place of
that recursion. Both leave the same trace and stop for the same reason.
-/

namespace Workflow

/-! ### Visits by recursion -/

/-- How far a recursion got: the ids it marked, its trace, and what stopped it if something did. -/
structure Descent where
  marked : List String := []
  trace : List TraceEntry := []
  error? : Option WalkError := none

/-- Marks a node and logs its entry. -/
def Descent.log (d : Descent) (n : Node) (input output : Value) (timestamp : Int) : Descent :=
  { d with
    marked := n.id :: d.marked
    trace := d.trace ++ [n.entry input output timestamp] }

/-- The nodes that are still to be marked. -/
def Graph.unmarked (g : Graph) (marked : List String) : List Node :=
  g.nodes.filter fun n => n.id ∉ marked

lemma Graph.unmarked_length_le {g : Graph} {marked marked' : List String}
    (h : marked ⊆ marked') : (g.unmarked marked').length ≤ (g.unmarked marked).length := by
  apply List.Sublist.length_le
  apply List.monotone_filter_right
  intro n hn
  simp only [decide_eq_true_eq] at hn ⊢
  exact fun hm => hn (h hm)

lemma Graph.unmarked_cons_length_lt {g : Graph} {marked : List String} {n : Node}
    (hn : n ∈ g.nodes) (hm : n.id ∉ marked) :
    (g.unmarked (n.id :: marked)).length < (g.unmarked marked).length := by
  have hsplit : g.unmarked (n.id :: marked)
      = (g.unmarked marked).filter fun m => decide (m.id ≠ n.id) := by
    simp [Graph.unmarked, List.filter_filter]
  rw [hsplit]
  apply List.length_filter_lt_length_iff_exists.2
  exact ⟨n, by simp [Graph.unmarked, hn, hm], by simp⟩

mutual

/-- Visits the node of an id, and then everything that its edges lead to. -/
def Graph.visit (g : Graph) (clock : Nat → Int) (d : Descent) (id : String) (input : Value) :
    { d' : Descent // d.marked ⊆ d'.marked } :=
  match _hn : g.find? id with
  | none => ⟨{ d with error? := some (.dangling id) }, List.Subset.refl _⟩
  | some n =>
    if _hm : n.id ∈ d.marked then
      ⟨{ d with error? := some (.cycle n.id n.label) }, List.Subset.refl _⟩
    else
      match n.evaluate input with
      | .error cause =>
        ⟨{ d with
            marked := n.id :: d.marked
            error? := some (.node n.id n.label n.type cause) }, List.subset_cons_self _ _⟩
      | .ok output =>
        let r := g.visitEach clock (d.log n input output (clock d.trace.length)) (g.targets n.id)
          output
        ⟨r.1, List.Subset.trans (List.subset_cons_self _ _) r.2⟩
termination_by ((g.unmarked d.marked).length, 0)
decreasing_by
  exact Prod.Lex.left _ _ (Graph.unmarked_cons_length_lt (Graph.mem_of_find? _hn) _hm)

/-- Visits the nodes of some ids with one input, up to the first visit that stops. -/
def Graph.visitEach (g : Graph) (clock : Nat → Int) (d : Descent) (ids : List String)
    (input : Value) : { d' : Descent // d.marked ⊆ d'.marked } :=
  match ids with
  | [] => ⟨d, List.Subset.refl _⟩
  | id :: ids =>
    match g.visit clock d id input with
    | ⟨d', hd⟩ =>
      match d'.error? with
      | some _ => ⟨d', hd⟩
      | none =>
        let r := g.visitEach clock d' ids input
        ⟨r.1, List.Subset.trans hd r.2⟩
termination_by ((g.unmarked d.marked).length, ids.length + 1)
decreasing_by
  · exact Prod.Lex.right _ (by omega)
  · have hle := Graph.unmarked_length_le (g := g) hd
    simp only [Prod.lex_def, List.length_cons]
    omega

end

section Equations

variable {g : Graph} {clock : Nat → Int} {d : Descent} {id : String} {input : Value} {n : Node}

lemma Graph.visit_unknown (hn : g.find? id = none) :
    (g.visit clock d id input).1 = { d with error? := some (.dangling id) } := by
  rw [Graph.visit]
  split
  · rfl
  · simp_all

lemma Graph.visit_marked (hn : g.find? id = some n) (hm : n.id ∈ d.marked) :
    (g.visit clock d id input).1 = { d with error? := some (.cycle n.id n.label) } := by
  rw [Graph.visit]
  split
  · simp_all
  · next m hm' =>
    obtain rfl : m = n := by simpa [hm'] using hn
    rw [dif_pos hm]

lemma Graph.visit_failure {cause : NodeError} (hn : g.find? id = some n) (hm : n.id ∉ d.marked)
    (he : n.evaluate input = .error cause) :
    (g.visit clock d id input).1
      = { d with
          marked := n.id :: d.marked
          error? := some (.node n.id n.label n.type cause) } := by
  rw [Graph.visit]
  split
  · simp_all
  · next m hm' =>
    obtain rfl : m = n := by simpa [hm'] using hn
    rw [dif_neg hm, he]

lemma Graph.visit_success {output : Value} (hn : g.find? id = some n) (hm : n.id ∉ d.marked)
    (he : n.evaluate input = .ok output) :
    (g.visit clock d id input).1
      = (g.visitEach clock (d.log n input output (clock d.trace.length)) (g.targets n.id)
          output).1 := by
  rw [Graph.visit]
  split
  · simp_all
  · next m hm' =>
    obtain rfl : m = n := by simpa [hm'] using hn
    rw [dif_neg hm, he]

@[simp] lemma Graph.visitEach_nil : (g.visitEach clock d [] input).1 = d := by
  rw [Graph.visitEach]

lemma Graph.visitEach_stop {ids : List String} {e : WalkError}
    (he : (g.visit clock d id input).1.error? = some e) :
    (g.visitEach clock d (id :: ids) input).1 = (g.visit clock d id input).1 := by
  rw [Graph.visitEach]
  generalize g.visit clock d id input = r at he
  obtain ⟨d', hd⟩ := r
  simp only at he
  simp only [he]

lemma Graph.visitEach_go {ids : List String}
    (he : (g.visit clock d id input).1.error? = none) :
    (g.visitEach clock d (id :: ids) input).1
      = (g.visitEach clock (g.visit clock d id input).1 ids input).1 := by
  rw [Graph.visitEach]
  generalize g.visit clock d id input = r at he
  obtain ⟨d', hd⟩ := r
  simp only at he
  simp only [he]

end Equations

/-! ### The walk follows the recursion -/

/-- A recursion that goes on, in which exactly the ids of the trace are marked. -/
structure Descent.Going (d : Descent) : Prop where
  error?_eq_none : d.error? = none
  marked_iff : ∀ id, id ∈ d.marked ↔ visited d.trace id = true

lemma Descent.going_empty : Descent.Going {} :=
  ⟨rfl, by simp⟩

lemma Descent.Going.log {d : Descent} (h : d.Going) (n : Node) (input output : Value)
    (timestamp : Int) : (d.log n input output timestamp).Going := by
  refine ⟨h.error?_eq_none, fun id => ?_⟩
  simp only [Descent.log, List.mem_cons, h.marked_iff, visited_append_entry, Bool.or_eq_true,
    decide_eq_true_eq]
  tauto

/-- What a walk makes of a recursion and of the visits that are left after it. -/
def Graph.resume (g : Graph) (clock : Nat → Int) (d : Descent) (later : Agenda) : Walk :=
  match d.error? with
  | some e => ⟨d.trace, some e⟩
  | none => g.walk clock d.trace later

lemma Graph.resume_going {g : Graph} {clock : Nat → Int} {d : Descent} (h : d.Going)
    (later : Agenda) : g.resume clock d later = g.walk clock d.trace later := by
  simp [Graph.resume, h.error?_eq_none]

/-- A walk follows a recursion from `d` to `d'` if it visits some agenda as that one does. -/
def Graph.Follows (g : Graph) (clock : Nat → Int) (agenda : Agenda) (d d' : Descent) : Prop :=
  (d'.error? = none → d'.Going) ∧
    ∀ later, g.walk clock d.trace (agenda ++ later) = g.resume clock d' later

/--
The walk visits a node as the recursion does, and then the agenda holds exactly what the recursion
has left to do. By induction on the recursion: the targets of a node stand on the agenda before its
siblings, which is where the recursion comes to them.
-/
lemma Graph.walk_follows_visit (g : Graph) (clock : Nat → Int) :
    (∀ (d : Descent) (id : String) (input : Value), d.Going →
      g.Follows clock [(id, input)] d (g.visit clock d id input).1) ∧
    ∀ (d : Descent) (ids : List String) (input : Value), d.Going →
      g.Follows clock (ids.map fun id => (id, input)) d (g.visitEach clock d ids input).1 := by
  apply Graph.visit.mutual_induct g clock
  · intro d id input hn hd
    rw [Graph.visit_unknown hn]
    exact ⟨by simp, fun later => by simp [Graph.walk_dangling hn, Graph.resume]⟩
  · intro d id input n hn hm hd
    have hv : visited d.trace n.id = true := (hd.marked_iff n.id).1 hm
    rw [Graph.visit_marked hn hm]
    exact ⟨by simp, fun later => by simp [Graph.walk_cycle hn hv, Graph.resume]⟩
  · intro d id input n hn hm cause he hd
    have hv : visited d.trace n.id = false := by
      simpa [hd.marked_iff] using hm
    rw [Graph.visit_failure hn hm he]
    exact ⟨by simp, fun later => by simp [Graph.walk_failure hn hv he, Graph.resume]⟩
  · intro d id input n hn hm output he ih hd
    have hv : visited d.trace n.id = false := by
      simpa [hd.marked_iff] using hm
    obtain ⟨hgoing, hwalk⟩ := ih (hd.log n input output (clock d.trace.length))
    rw [Graph.visit_success hn hm he]
    refine ⟨hgoing, fun later => ?_⟩
    rw [← hwalk later, List.singleton_append, Graph.walk_visit hn hv he]
    simp [Graph.visitsFrom, Graph.targets, Descent.log, Function.comp_def]
  · intro d input hd
    rw [Graph.visitEach_nil]
    exact ⟨fun _ => hd, fun later => by simp [Graph.resume_going hd]⟩
  · intro d input id ids d' hsub hr e he ih hd
    obtain ⟨-, hwalk⟩ := ih hd
    have hstop : (g.visit clock d id input).1.error? = some e := by rw [hr, he]
    rw [Graph.visitEach_stop hstop]
    refine ⟨by simp [hstop], fun later => ?_⟩
    rw [List.map_cons, List.cons_append, ← List.singleton_append, hwalk]
    simp [Graph.resume, hstop]
  · intro d input id ids d' hsub hr he ih ih' hd
    obtain ⟨hgoing, hwalk⟩ := ih hd
    have hgo : (g.visit clock d id input).1.error? = none := by rw [hr, he]
    rw [hr] at hgoing hwalk
    obtain ⟨hgoing', hwalk'⟩ := ih' (hgoing he)
    rw [Graph.visitEach_go hgo, hr]
    refine ⟨hgoing', fun later => ?_⟩
    rw [List.map_cons, List.cons_append, ← List.singleton_append, hwalk,
      Graph.resume_going (hgoing he), hwalk']

/-- A recursion that begins with nothing marked and nothing logged. -/
def Graph.descend (g : Graph) (clock : Nat → Int) (id : String) (input : Value) : Descent :=
  (g.visit clock {} id input).1

lemma Graph.walk_eq_descend (g : Graph) (clock : Nat → Int) (id : String) (input : Value) :
    g.walk clock [] [(id, input)]
      = ⟨(g.descend clock id input).trace, (g.descend clock id input).error?⟩ := by
  have h := ((g.walk_follows_visit clock).1 {} id input Descent.going_empty).2 []
  rw [List.append_nil] at h
  rw [h, Graph.resume, Graph.descend]
  cases he : (g.visit clock {} id input).1.error? <;> simp

/--
A run that may begin is the recursion from its first start node: it leaves the same trace, fails
exactly if the recursion does and for the same reason, and names the last entry of that trace, which
is none exactly if the trace is empty.
-/
theorem Graph.execute_eq_descend {g : Graph} {start : Node} (clock : Nat → Int)
    (hs : g.start? = some start) (he : g.hasEnd = true) :
    (g.execute clock).trace = (g.descend clock start.id .null).trace ∧
    (g.execute clock).error? = (g.descend clock start.id .null).error?.map
      (fun cause => .stopped cause (g.descend clock start.id .null).trace.getLast?) ∧
    ∀ cause last, (g.execute clock).error? = some (.stopped cause last) →
      last = (g.execute clock).trace.getLast? ∧ (last = none ↔ (g.execute clock).trace = []) := by
  rw [Graph.execute_of_begins clock hs he, Graph.walk_eq_descend]
  refine ⟨rfl, rfl, fun cause last h => ?_⟩
  obtain ⟨_, -, hlast⟩ := Option.map_eq_some_iff.1 h
  obtain ⟨-, rfl⟩ := RunError.stopped.inj hlast
  exact ⟨rfl, List.getLast?_eq_none_iff⟩

/-- A start node and an end node, joined in both directions. -/
def Graph.thereAndBack : Graph where
  nodes := [⟨"a", ⟨0, 0⟩, .standard .start⟩, ⟨"b", ⟨0, 0⟩, .standard .finish⟩]
  edges := [.between "a" "b", .between "b" "a"]

/-- The way back is found out after both nodes were visited. -/
theorem Graph.execute_eq_descend_thereAndBack :
    Graph.thereAndBack.start? = some ⟨"a", ⟨0, 0⟩, .standard .start⟩ ∧
    Graph.thereAndBack.hasEnd = true ∧
    (Graph.thereAndBack.execute fun _ => 0).trace
      = (Graph.thereAndBack.descend (fun _ => 0) "a" .null).trace ∧
    (Graph.thereAndBack.execute fun _ => 0).error?
      = (Graph.thereAndBack.descend (fun _ => 0) "a" .null).error?.map
          fun cause => .stopped cause
            (Graph.thereAndBack.descend (fun _ => 0) "a" .null).trace.getLast? :=
  have hs : Graph.thereAndBack.start? = some ⟨"a", ⟨0, 0⟩, .standard .start⟩ := rfl
  have h := Graph.execute_eq_descend (fun _ => 0) hs rfl
  ⟨hs, rfl, h.1, h.2.1⟩

end Workflow
