import Workflow.Proofs.Editor.Burst

/-!
# Actions

While an action is going on nothing is recorded: a recording that was to come falls due without an
effect, and no edit starts another one. The end of the action records its result once, and leaves
nothing to come.
-/

namespace Workflow.Editor

/-- Whether an operation is an edit, or lets time pass. -/
def Operation.IsEditOrWait (op : Operation) : Prop :=
  op.IsEdit ∨ ∃ span, op = .advance span

/-- An editor in an action, with the history that another one has. -/
structure Suspends (e x : Editor) : Prop where
  config : x.config = e.config
  past : x.past = e.past
  future : x.future = e.future
  inAction : x.inAction = true

variable {e x : Editor} {op : Operation} {ops : List Operation}

/-! ### Within an action -/

lemma Suspends.not_willRecord (h : e.Suspends x) : ¬x.WillRecord := by
  rintro ⟨-, hidle, -⟩
  simp [h.inAction] at hidle

/-- Neither an edit nor time touches the history while an action is going on. -/
lemma Suspends.perform (h : e.Suspends x) (hop : op.IsEditOrWait) :
    e.Suspends (x.perform op) := by
  rcases hop with hedit | ⟨span, rfl⟩
  · have hsame : x.Undisturbed (x.perform op) := undisturbed_perform hedit
    constructor
    · exact hsame.config.trans h.config
    · exact hsame.past.trans h.past
    · exact hsame.future.trans h.future
    · exact hsame.inAction.trans h.inAction
  · have hrests : x.Rests (x.perform (.advance span)) :=
      rests_undergoAll h.not_willRecord [.time span]
    constructor
    · exact hrests.config.trans h.config
    · exact hrests.past.trans h.past
    · exact hrests.future.trans h.future
    · exact hrests.inAction.trans h.inAction

lemma Suspends.performAll (h : e.Suspends x) (hops : ∀ op ∈ ops, op.IsEditOrWait) :
    e.Suspends (x.performAll ops) := by
  induction ops generalizing x with
  | nil => exact h
  | cons op ops ih =>
    obtain ⟨hop, hlater⟩ := List.forall_mem_cons.1 hops
    exact ih (h.perform hop) hlater

/-! ### The end of an action -/

/-- What a recording answers: that it made an entry, or that there was nothing new. -/
lemma recordState_answer_ok_iff (e : Editor) (made : Bool) :
    (e.recordState false).answer = .ok made ↔
      ∃ s, e.snapshot = .ok s ∧ e.unchanged s = .ok (!made) := by
  simp only [recordState, withSnapshot]
  cases e.snapshot with
  | error f => simp [fail]
  | ok s =>
    simp only [Bool.false_eq_true, if_false, Except.ok.injEq, exists_eq_left']
    cases e.unchanged s with
    | error reason => simp [fail]
    | ok same => cases same <;> cases made <;> simp [done]

/-- What the end of an action does to the history is one recording of the present. -/
lemma endAction_eq_recordState (x : Editor) :
    x.endAction.answer = (x.recordState false).answer ∧
      x.endAction.editor.past = (x.recordState false).editor.past ∧
      x.endAction.editor.future = (x.recordState false).editor.future := by
  let ended : Editor := { x with inAction := false }.cancelTimer .recording
  have hsnapshot : ended.snapshot = x.snapshot := rfl
  have hunchanged : ∀ s, ended.unchanged s = x.unchanged s := fun _ => rfl
  change (ended.recordState false).answer = _ ∧ (ended.recordState false).editor.past = _ ∧
    (ended.recordState false).editor.future = _
  simp only [recordState, withSnapshot, hsnapshot, hunchanged]
  cases x.snapshot with
  | error f => exact ⟨rfl, rfl, rfl⟩
  | ok s =>
    simp only [Bool.false_eq_true, if_false]
    cases x.unchanged s with
    | error reason => exact ⟨rfl, rfl, rfl⟩
    | ok same => cases same <;> exact ⟨rfl, rfl, rfl⟩

/-- An end node that is added in an action, while the recording of the start node falls due. -/
def within : List Operation :=
  [.addNode (.str "end") .null .null, .advance 600]

end Workflow.Editor
