import Workflow.Proofs.Editor.Building
import Workflow.Proofs.Run.Completion

/-!
# Running what was built

A graph that was built in an editor may have cycles, but no run of it comes to one, nor to an edge
that leads nowhere. A run is announced before it begins, and the recorder then looks at the graph.
What it saw last is what there is to see, and so it only stands in the way of a run if it cannot see
the graph.
-/

namespace Workflow

/-! ### Runs by the rules -/

/-- Whether a run fails before it begins. -/
def RunError.IsBare (error : RunError) : Prop :=
  ∀ cause last, error ≠ .stopped cause last

/-- What an editor answers after a run. -/
def Run.answer (run : Run) : Except EditorFailure (List TraceEntry) :=
  match run.error? with
  | none => .ok run.trace
  | some error => .error (.run error)

namespace Editor

/-! ### What the recorder saw -/

/-- What the recorder saw last is what there is to see, as long as it watches. -/
def Noted (e : Editor) : Prop :=
  e.watching = true → ∀ signals, e.state.graph.signals = .ok signals → e.signals = signals

/-- The recorder watches, but cannot see the graph, as a payload is no JSON document. -/
def Blinded (e : Editor) (reason : DumpFault) : Prop :=
  e.watching = true ∧ e.state.graph.signals = .error reason

section Noted

variable {e : Editor}

/-- A change fails to be announced only because the recorder cannot see the graph. -/
lemma announce_error {change : Change} {f : EditorFailure}
    (h : (e.announce change).answer = .error f) :
    ∃ reason, e.Blinded reason ∧ f = .noFingerprint (.unfit reason) := by
  have hreacts : e.recorderReacts.answer = .error f := by
    cases hanswer : e.recorderReacts.answer with
    | error reason =>
      rw [announce, Outcome.andThen_of_error hanswer] at h
      exact h
    | ok _ =>
      rw [announce, Outcome.andThen_of_ok hanswer] at h
      cases h
  rw [recorderReacts] at hreacts
  split_ifs at hreacts with hblind
  · cases hreacts
  · cases hsignals : e.state.graph.signals with
    | error reason =>
      simp only [hsignals] at hreacts
      exact ⟨reason, ⟨by simpa using hblind, hsignals⟩, (Except.error.inj hreacts).symm⟩
    | ok signals =>
      simp only [hsignals] at hreacts
      split_ifs at hreacts <;> cases hreacts

/-- An editor with the executing flag set, before that is announced. -/
def flagged (e : Editor) (value : Bool) : Editor :=
  { e with
    state := { e.state with executing := value }
    misfits := { e.misfits with executing := none } }

end Noted

end Editor

/-- Lists in lists, as deep as given. -/
def Document.nested : Nat → Document
  | 0 => .list []
  | n + 1 => .list [nested n]

end Workflow
