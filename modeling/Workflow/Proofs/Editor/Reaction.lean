import Mathlib.Tactic
import Workflow.Editor.Operation

/-!
# What a change sets off

The parts of an editor react to a change with their timers, and the recorder notes what it saw.
Everything else stays as the change left it.
-/

namespace Workflow

namespace Outcome

variable {α β : Type}

@[simp] lemma answering_editor (o : Outcome α) (b : β) : (o.answering b).editor = o.editor := rfl

lemma answering_answer_ok {o : Outcome α} {b c : β} :
    (o.answering b).answer = .ok c ↔ b = c ∧ ∃ a, o.answer = .ok a := by
  cases h : o.answer with
  | ok a => simp [answering, h, Except.map]
  | error e => simp [answering, h, Except.map]

lemma andThen_of_ok {o : Outcome α} {a : α} (h : o.answer = .ok a)
    (next : Editor → α → Outcome β) : o.andThen next = next o.editor a := by
  simp [andThen, h]

lemma andThen_of_error {o : Outcome α} {f : EditorFailure} (h : o.answer = .error f)
    (next : Editor → α → Outcome β) : o.andThen next = ⟨o.editor, .error f⟩ := by
  simp [andThen, h]

/-- What holds of an editor after an operation, and is kept by what comes next, holds at the end. -/
lemma andThen_editor {P : Editor → Prop} {o : Outcome α} {next : Editor → α → Outcome β}
    (h : P o.editor) (hnext : ∀ a, P (next o.editor a).editor) : P (o.andThen next).editor := by
  cases ha : o.answer with
  | ok a => rw [andThen_of_ok ha]; exact hnext a
  | error f => rw [andThen_of_error ha]; exact h

lemma andThen_answer_ok {o : Outcome α} {next : Editor → α → Outcome β} {b : β}
    (h : (o.andThen next).answer = .ok b) :
    ∃ a, o.answer = .ok a ∧ (next o.editor a).answer = .ok b := by
  cases ha : o.answer with
  | ok a => exact ⟨a, rfl, by rwa [andThen_of_ok ha] at h⟩
  | error f => rw [andThen_of_error ha] at h; cases h

end Outcome

namespace Editor

lemma read_editor {α β : Type} {P : Editor → Prop} {e : Editor} {model : String} {r : Reading α}
    {next : α → Outcome β} (h : P e) (hnext : ∀ a, P (next a).editor) :
    P (e.read model r next).editor := by
  cases r with
  | ok a => exact hnext a
  | failed issues => exact h

lemma withSnapshot_of_ok {α : Type} {e : Editor} {s : EditorState} (h : e.snapshot = .ok s)
    (next : EditorState → Outcome α) : e.withSnapshot next = next s := by
  rw [withSnapshot, h]

lemma withSnapshot_of_error {α : Type} {e : Editor} {f : EditorFailure} (h : e.snapshot = .error f)
    (next : EditorState → Outcome α) : e.withSnapshot next = e.fail f := by
  rw [withSnapshot, h]

lemma withSnapshot_editor {α : Type} {P : Editor → Prop} {e : Editor}
    {next : EditorState → Outcome α} (h : P e) (hnext : ∀ s, P (next s).editor) :
    P (e.withSnapshot next).editor := by
  cases hs : e.snapshot with
  | ok s =>
    rw [withSnapshot_of_ok hs]
    exact hnext s
  | error f =>
    rw [withSnapshot_of_error hs]
    exact h

/-! ### What the parts of an editor keep -/

/-- A fact about an editor that its recorder and its autosaver do not disturb with their timers. -/
structure KeptByTimers (P : Editor → Prop) : Prop where
  cancelTimer : ∀ e name, name ≠ .applying → P e → P (e.cancelTimer name)
  startTimer : ∀ e name, name ≠ .applying → P e → P (e.startTimer name)

/-- A fact about an editor that nothing disturbs of what its parts do as they react to a change. -/
structure KeptByReactions (P : Editor → Prop) : Prop extends KeptByTimers P where
  signals : ∀ e signals, P e → P { e with signals := signals }
  unsaved : ∀ e unsaved, P e → P { e with unsaved := unsaved }
  announced : ∀ e announced, P e → P { e with announced := announced }

section Kept

variable {P : Editor → Prop} {e : Editor}

lemma KeptByTimers.scheduleRecording (hP : KeptByTimers P) (h : P e) :
    P e.scheduleRecording := by
  rw [Editor.scheduleRecording]
  split_ifs
  · exact h
  · exact hP.startTimer e .recording nofun h

lemma KeptByTimers.recorderReacts (hP : KeptByTimers P)
    (hsignals : ∀ x signals, P x → P { x with signals := signals }) (h : P e) :
    P e.recorderReacts.editor := by
  rw [Editor.recorderReacts]
  split_ifs
  · exact h
  · cases e.state.graph.signals with
    | error reason => exact h
    | ok signals =>
      have hnoted := hsignals e signals h
      dsimp only
      split_ifs with hsame happlying
      · exact h
      · exact hP.cancelTimer _ _ nofun hnoted
      · exact hP.scheduleRecording hnoted

lemma autosaverReacts_kept {change : Change} (h : P e)
    (hunsaved : ∀ x unsaved, P x → P { x with unsaved := unsaved })
    (hsaving : ∀ x, P x → P (x.startTimer .saving)) : P (e.autosaverReacts change) := by
  rw [Editor.autosaverReacts]
  split_ifs
  · exact hsaving _ (hunsaved _ _ h)
  · exact h

/-- What the recorder leaves behind and the autosaver does not disturb holds after a change. -/
lemma announce_kept {change : Change} (hrecorder : P e.recorderReacts.editor)
    (hunsaved : ∀ x unsaved, P x → P { x with unsaved := unsaved })
    (hsaving : ∀ x, P x → P (x.startTimer .saving))
    (hannounced : ∀ x announced, P x → P { x with announced := announced }) :
    P (e.announce change).editor :=
  Outcome.andThen_editor hrecorder fun _ =>
    hannounced _ _ (autosaverReacts_kept hrecorder hunsaved hsaving)

/-- What the reactions to a change keep, the change keeps as a whole. -/
lemma KeptByReactions.announce (hP : KeptByReactions P) (h : P e) (change : Change) :
    P (e.announce change).editor :=
  announce_kept (hP.recorderReacts hP.signals h) hP.unsaved
    (fun x hx => hP.startTimer x .saving nofun hx) hP.announced

end Kept

/-! ### What stays -/

/-- An editor without its timers and without what the reactions to a change note down. -/
def still (e : Editor) : Editor :=
  { e with
    applyingTimer := {}
    signals := {}
    recordingTimer := {}
    unsaved := none
    savingTimer := {}
    clock := { e.clock with calls := [] }
    announced := [] }

@[simp] lemma still_cancelTimer (e : Editor) (name : TimerName) :
    (e.cancelTimer name).still = e.still := by
  cases name <;> rfl

@[simp] lemma now_schedule {κ : Type} (clock : Clock κ) (delay : Delay) (owner : κ)
    (generation : Nat) : (clock.schedule delay owner generation).now = clock.now := by
  cases delay <;> rfl

@[simp] lemma still_startTimer (e : Editor) (name : TimerName) :
    (e.startTimer name).still = e.still := by
  cases name <;> simp [startTimer, still, cancelTimer, setTimer, Clock.withdraw]

lemma keptByReactions_still (e : Editor) : KeptByReactions fun x => x.still = e.still where
  cancelTimer x name _ h := (still_cancelTimer x name).trans h
  startTimer x name _ h := (still_startTimer x name).trans h
  signals _ _ h := h
  unsaved _ _ h := h
  announced _ _ h := h

@[simp] lemma still_recorderReacts (e : Editor) : e.recorderReacts.editor.still = e.still :=
  (keptByReactions_still e).recorderReacts (keptByReactions_still e).signals rfl

@[simp] lemma still_announce (e : Editor) (change : Change) :
    (e.announce change).editor.still = e.still :=
  (keptByReactions_still e).announce rfl change

@[simp] lemma still_replaceState (e : Editor) (s : EditorState) :
    (e.replaceState s).editor.still = { e with state := s, misfits := {} }.still := by
  rw [replaceState, still_announce]

end Editor

end Workflow
