import Workflow.Proofs.Editor.Action

/-!
# When history fails

In an editor whose selection is a text and whose executing flag is a boolean, a state can be kept if
there is room to copy it. What can fail beside that is to compare it to the newest entry, for which
both need a fingerprint, and to react when another state takes its place, for which the recorder
must see its graph.
-/

namespace Workflow

/-- Whether an operation answers. -/
def Outcome.Succeeds {α : Type} (o : Outcome α) : Prop :=
  ∃ a, o.answer = .ok a

section Succeeds

variable {α β : Type}

@[simp] lemma Editor.done_succeeds (e : Editor) (a : α) : (e.done a).Succeeds :=
  ⟨a, rfl⟩

@[simp] lemma Editor.not_fail_succeeds (e : Editor) (f : EditorFailure) :
    ¬(e.fail f : Outcome α).Succeeds := by
  rintro ⟨a, ha⟩
  cases ha

lemma Outcome.andThen_succeeds {o : Outcome α} {next : Editor → α → Outcome β} :
    (o.andThen next).Succeeds ↔ ∃ a, o.answer = .ok a ∧ (next o.editor a).Succeeds := by
  cases ha : o.answer with
  | ok a => simp [andThen_of_ok ha]
  | error f => simp [andThen_of_error ha, Succeeds]

end Succeeds

namespace Editor

variable {e : Editor}

/-! ### States that can be kept -/

lemma recorderReacts_succeeds_iff :
    e.recorderReacts.Succeeds ↔ (e.watching = true → e.state.graph.IsVisible) := by
  rw [recorderReacts, Graph.IsVisible]
  cases e.watching with
  | false => simp
  | true =>
    cases e.state.graph.signals with
    | error reason => simp
    | ok signals => by_cases hsame : signals = e.signals <;> simp [hsame]

/-- Whether the editor's own parts can react to a change is a matter of its graph. -/
lemma announce_succeeds_iff (change : Change) :
    (e.announce change).Succeeds ↔ (e.watching = true → e.state.graph.IsVisible) := by
  rw [← recorderReacts_succeeds_iff, announce, Outcome.andThen_succeeds]
  simp only [done_succeeds, and_true]
  rfl

end Editor

end Workflow
