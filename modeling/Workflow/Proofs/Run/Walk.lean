import Mathlib.Data.List.Nodup
import Mathlib.Tactic
import Workflow.Run.Basic

/-!
# What a walk keeps

A walk stops for one of four reasons: nothing is left to visit, an edge leads nowhere, a node is
reached a second time, or a node fails. A fact about its trace and its agenda that every visit keeps
still holds when it stops.
-/

namespace Workflow

/-! ### Traces -/

@[simp] lemma visited_nil (id : String) : visited [] id = false := rfl

@[simp] lemma visited_append_entry (trace : List TraceEntry) (n : Node) (input output : Value)
    (timestamp : Int) (id : String) :
    visited (trace ++ [n.entry input output timestamp]) id = (visited trace id || n.id = id) := by
  simp [visited, Node.entry]

/-- The ids of a trace, in the order of the visits. -/
def idsOf (trace : List TraceEntry) : List String :=
  trace.map TraceEntry.nodeId

@[simp] lemma idsOf_nil : idsOf [] = [] := rfl

@[simp] lemma idsOf_append_entry (trace : List TraceEntry) (n : Node) (input output : Value)
    (timestamp : Int) :
    idsOf (trace ++ [n.entry input output timestamp]) = idsOf trace ++ [n.id] := by
  simp [idsOf, Node.entry]

lemma visited_iff {trace : List TraceEntry} {id : String} :
    visited trace id = true ↔ id ∈ idsOf trace := by
  simp [visited, idsOf]

lemma not_visited_iff {trace : List TraceEntry} {id : String} :
    visited trace id = false ↔ id ∉ idsOf trace := by
  rw [← visited_iff, Bool.not_eq_true]

/-! ### Start nodes -/

lemma StartData.evaluate_eq_ok_iff {data : StartData} {output : Value} :
    data.evaluate = .ok output ↔ Json.read .payload data.payload = .ok output := by
  rw [StartData.evaluate]
  split <;> simp_all

/-! ### One visit -/

section Visit

variable {g : Graph} {clock : Nat → Int} {trace : List TraceEntry} {id : String} {input : Value}
  {later : Agenda} {n : Node}

@[simp] lemma Graph.walk_nil : g.walk clock trace [] = ⟨trace, none⟩ := by
  rw [Graph.walk]

lemma Graph.walk_dangling (hn : g.find? id = none) :
    g.walk clock trace ((id, input) :: later) = ⟨trace, some (.dangling id)⟩ := by
  rw [Graph.walk]
  split
  · rfl
  · simp_all

lemma Graph.walk_cycle (hn : g.find? id = some n) (hv : visited trace n.id = true) :
    g.walk clock trace ((id, input) :: later) = ⟨trace, some (.cycle n.id n.label)⟩ := by
  rw [Graph.walk]
  split
  · simp_all
  · next m hm =>
    obtain rfl : m = n := by simpa [hm] using hn
    rw [dif_pos hv]

lemma Graph.walk_failure {cause : NodeError} (hn : g.find? id = some n)
    (hv : visited trace n.id = false) (he : n.evaluate input = .error cause) :
    g.walk clock trace ((id, input) :: later)
      = ⟨trace, some (.node n.id n.label n.type cause)⟩ := by
  rw [Graph.walk]
  split
  · simp_all
  · next m hm =>
    obtain rfl : m = n := by simpa [hm] using hn
    rw [dif_neg (by simp [hv]), he]

lemma Graph.walk_visit {output : Value} (hn : g.find? id = some n)
    (hv : visited trace n.id = false) (he : n.evaluate input = .ok output) :
    g.walk clock trace ((id, input) :: later)
      = g.walk clock (trace ++ [n.entry input output (clock trace.length)])
          (g.visitsFrom n.id output ++ later) := by
  rw [Graph.walk]
  split
  · simp_all
  · next m hm =>
    obtain rfl : m = n := by simpa [hm] using hn
    rw [dif_neg (by simp [hv]), he]

end Visit

/-! ### All visits -/

/--
How a walk stopped, for a fact about its trace and its agenda that held when it did. If it stopped
at a visit, that visit is the first of the agenda.
-/
inductive Graph.Stops (g : Graph) (holds : List TraceEntry → Agenda → Prop) : Walk → Prop where
  | finished {trace : List TraceEntry} (h : holds trace []) : Stops g holds ⟨trace, none⟩
  | dangling {trace : List TraceEntry} {id : String} {input : Value} {later : Agenda}
      (h : holds trace ((id, input) :: later)) (hn : g.find? id = none) :
      Stops g holds ⟨trace, some (.dangling id)⟩
  | cycle {trace : List TraceEntry} {id : String} {input : Value} {later : Agenda} {n : Node}
      (h : holds trace ((id, input) :: later)) (hn : g.find? id = some n)
      (hv : visited trace n.id = true) : Stops g holds ⟨trace, some (.cycle n.id n.label)⟩
  | failure {trace : List TraceEntry} {id : String} {input : Value} {later : Agenda} {n : Node}
      {cause : NodeError} (h : holds trace ((id, input) :: later)) (hn : g.find? id = some n)
      (hv : visited trace n.id = false) (he : n.evaluate input = .error cause) :
      Stops g holds ⟨trace, some (.node n.id n.label n.type cause)⟩

/-- A visit that succeeds keeps a fact about the trace and the agenda. -/
def Graph.KeptByVisits (g : Graph) (clock : Nat → Int)
    (holds : List TraceEntry → Agenda → Prop) : Prop :=
  ∀ (trace : List TraceEntry) (id : String) (input : Value) (later : Agenda) (n : Node)
    (output : Value), holds trace ((id, input) :: later) → g.find? id = some n →
    visited trace n.id = false → n.evaluate input = .ok output →
    holds (trace ++ [n.entry input output (clock trace.length)])
      (g.visitsFrom n.id output ++ later)

/-- What every visit keeps holds when the walk stops. -/
theorem Graph.walk_stops {g : Graph} {clock : Nat → Int}
    {holds : List TraceEntry → Agenda → Prop} (hkeep : g.KeptByVisits clock holds)
    (trace : List TraceEntry) (agenda : Agenda) (h : holds trace agenda) :
    g.Stops holds (g.walk clock trace agenda) := by
  induction trace, agenda using Graph.walk.induct g clock with
  | case1 trace =>
    rw [Graph.walk_nil]
    exact .finished h
  | case2 trace id input later hn =>
    rw [Graph.walk_dangling hn]
    exact .dangling h hn
  | case3 trace id input later n hn hv =>
    rw [Graph.walk_cycle hn hv]
    exact .cycle h hn hv
  | case4 trace id input later n hn hv cause he =>
    rw [Bool.not_eq_true] at hv
    rw [Graph.walk_failure hn hv he]
    exact .failure h hn hv he
  | case5 trace id input later n hn hv output he ih =>
    rw [Bool.not_eq_true] at hv
    rw [Graph.walk_visit hn hv he]
    exact ih (hkeep trace id input later n output h hn hv he)

/-! ### Runs -/

/-- A run that may begin walks from its first start node. -/
lemma Graph.execute_of_begins {g : Graph} {start : Node} (clock : Nat → Int)
    (hs : g.start? = some start) (he : g.hasEnd = true) :
    g.execute clock
      = ⟨(g.walk clock [] [(start.id, .null)]).trace,
          (g.walk clock [] [(start.id, .null)]).error?.map fun cause =>
            .stopped cause (g.walk clock [] [(start.id, .null)]).trace.getLast?⟩ := by
  have hne : g.nodes.isEmpty = false := by
    cases hnodes : g.nodes with
    | nil => simp [Graph.start?, hnodes] at hs
    | cons n rest => rfl
  simp [Graph.execute, hne, hs, he]

end Workflow
