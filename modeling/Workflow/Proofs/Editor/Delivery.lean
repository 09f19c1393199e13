import Workflow.Proofs.Editor.Reaction

/-!
# What a call does that comes through

A call ends the window of undo and redo, records an entry of history, or saves. Each touches its own
part of the editor and starts no timer.
-/

namespace Workflow.Editor

/-! ### Recording -/

/-- Whether the present would be recorded, rather than dropped as a repetition. -/
def Records (e : Editor) (s : EditorState) : Prop :=
  e.snapshot = .ok s ∧ e.unchanged s = .ok false

lemma recordState_of_records {e : Editor} {s : EditorState} (h : e.Records s) (force : Bool) :
    e.recordState force = (e.push s).done true := by
  obtain ⟨hsnapshot, hunchanged⟩ := h
  rw [recordState, withSnapshot_of_ok hsnapshot, hunchanged, ite_self]

lemma recordState_of_not_records {e : Editor} (h : ∀ s, ¬e.Records s) :
    (e.recordState false).editor = e := by
  rw [recordState]
  cases hsnapshot : e.snapshot with
  | error f => rw [withSnapshot_of_error hsnapshot]; rfl
  | ok s =>
    rw [withSnapshot_of_ok hsnapshot, if_neg Bool.false_ne_true]
    cases hunchanged : e.unchanged s with
    | error reason => rfl
    | ok same =>
      cases same with
      | false => exact absurd ⟨hsnapshot, hunchanged⟩ (h s)
      | true => rfl

/-- Recording makes an entry of a snapshot, and says so, or leaves the editor as it is. -/
lemma recordState_cases (e : Editor) (force : Bool) :
    (∃ s, e.snapshot = .ok s ∧ e.recordState force = (e.push s).done true) ∨
      (e.recordState force).editor = e ∧ (e.recordState force).answer ≠ .ok true := by
  rw [recordState]
  cases hsnapshot : e.snapshot with
  | error f =>
    rw [withSnapshot_of_error hsnapshot]
    exact .inr ⟨rfl, nofun⟩
  | ok s =>
    simp only [withSnapshot_of_ok hsnapshot, Except.ok.injEq, exists_eq_left']
    cases force with
    | true => exact .inl rfl
    | false =>
      cases e.unchanged s with
      | error reason => exact .inr ⟨rfl, nofun⟩
      | ok same =>
        cases same with
        | true => exact .inr ⟨rfl, nofun⟩
        | false => exact .inl rfl

/-- Recording touches the stacks of history only. -/
lemma exists_recordState_editor (e : Editor) (force : Bool) :
    ∃ past future, (e.recordState force).editor = { e with past := past, future := future } := by
  rcases recordState_cases e force with ⟨s, -, hrecorded⟩ | ⟨hsame, -⟩
  · rw [hrecorded]
    exact ⟨_, _, rfl⟩
  · rw [hsame]
    exact ⟨e.past, e.future, rfl⟩

/-! ### Saving -/

lemma refused_editor (e : Editor) (fault : PathFault) : (e.refused fault).editor = e := by
  rw [refused]
  split_ifs <;> rfl

/-- Writing touches the files only. -/
lemma exists_write_editor (e : Editor) (w : Export) :
    ∃ files, (e.write w).editor = { e with files := files } := by
  rw [write]
  dsimp only
  split
  · exact ⟨_, refused_editor _ _⟩
  · split
    · exact ⟨_, rfl⟩
    · split
      · exact ⟨_, refused_editor _ _⟩
      · exact ⟨_, rfl⟩

/-- A save that was waiting touches the files, and what is still to be saved. -/
lemma exists_flush_editor (e : Editor) :
    ∃ unsaved files, e.flush.editor = { e with unsaved := unsaved, files := files } := by
  rw [flush]
  split
  · next w _ =>
    obtain ⟨files, h⟩ := exists_write_editor { e with unsaved := none } w
    exact ⟨none, files, h⟩
  · exact ⟨e.unsaved, e.files, rfl⟩

/-! ### Timers by their names -/

@[simp] lemma timer_setTimer_self (e : Editor) (name : TimerName) (t : Timer) :
    (e.setTimer name t).timer name = t := by
  cases name <;> rfl

@[simp] lemma timer_setTimer_of_ne (e : Editor) {name other : TimerName} (t : Timer)
    (h : other ≠ name) : (e.setTimer name t).timer other = e.timer other := by
  cases name <;> cases other <;> first | rfl | exact absurd rfl h

@[simp] lemma clock_setTimer (e : Editor) (name : TimerName) (t : Timer) :
    (e.setTimer name t).clock = e.clock := by
  cases name <;> rfl

/-! ### Calls -/

/-- An editor that has taken a call off the clock and is about to act on it. -/
def taken (e : Editor) (call : Call TimerName) : Editor :=
  { e with clock := e.clock.deliver call }.setTimer call.owner
    ((e.timer call.owner).deliver call.generation)

lemma calls_taken (e : Editor) (call : Call TimerName) :
    (e.taken call).clock.calls = (e.clock.withdraw call.owner call.generation).calls := by
  rw [taken, clock_setTimer]
  rfl

lemma deliver_of_expects {e : Editor} {call : Call TimerName}
    (h : (e.timer call.owner).expects call.generation = true) :
    e.deliver call = (e.taken call).fire call.owner := by
  simp only [deliver, h, if_true, taken]

lemma deliver_of_stale {e : Editor} {call : Call TimerName}
    (h : (e.timer call.owner).expects call.generation = false) :
    e.deliver call = { e with clock := e.clock.deliver call }.done () := by
  simp only [deliver, h, Bool.false_eq_true, if_false]

/-- What a call does touches no timer, and not the graph. -/
lemma exists_fire_editor (e : Editor) (name : TimerName) :
    ∃ applying past future unsaved files, (e.fire name).editor
      = { e with
          applying := applying
          past := past
          future := future
          unsaved := unsaved
          files := files } := by
  cases name with
  | applying => exact ⟨false, e.past, e.future, e.unsaved, e.files, rfl⟩
  | recording =>
    rw [fire]
    split_ifs
    · exact ⟨e.applying, e.past, e.future, e.unsaved, e.files, rfl⟩
    · obtain ⟨past, future, h⟩ := exists_recordState_editor e false
      exact ⟨e.applying, past, future, e.unsaved, e.files, h⟩
  | saving =>
    obtain ⟨unsaved, files, h⟩ := exists_flush_editor e
    exact ⟨e.applying, e.past, e.future, unsaved, files, h⟩

/-- Taking a stale call changes the clock only. -/
lemma taken_of_stale {e : Editor} {call : Call TimerName}
    (h : (e.timer call.owner).expects call.generation = false) :
    e.taken call = { e with clock := e.clock.deliver call } := by
  rw [taken, Timer.deliver, h, if_neg Bool.false_ne_true]
  cases call.owner <;> rfl

/-- A call, stale or not, touches no other timer than its own, and not the graph. -/
lemma exists_deliver_editor (e : Editor) (call : Call TimerName) :
    ∃ applying past future unsaved files, (e.deliver call).editor
      = { e.taken call with
          applying := applying
          past := past
          future := future
          unsaved := unsaved
          files := files } := by
  cases hexpects : (e.timer call.owner).expects call.generation with
  | false =>
    rw [deliver_of_stale hexpects, taken_of_stale hexpects]
    exact ⟨e.applying, e.past, e.future, e.unsaved, e.files, rfl⟩
  | true =>
    rw [deliver_of_expects hexpects]
    exact exists_fire_editor (e.taken call) call.owner

lemma calls_deliver (e : Editor) (call : Call TimerName) :
    (e.deliver call).editor.clock.calls
      = (e.clock.withdraw call.owner call.generation).calls := by
  obtain ⟨_, _, _, _, _, hdelivered⟩ := exists_deliver_editor e call
  rw [hdelivered]
  exact calls_taken e call

lemma now_deliver (e : Editor) (call : Call TimerName) :
    (e.deliver call).editor.clock.now = call.due := by
  obtain ⟨_, _, _, _, _, hdelivered⟩ := exists_deliver_editor e call
  rw [hdelivered]
  change (e.taken call).clock.now = call.due
  rw [taken, clock_setTimer]
  rfl

lemma config_deliver (e : Editor) (call : Call TimerName) :
    (e.deliver call).editor.config = e.config := by
  obtain ⟨_, _, _, _, _, hdelivered⟩ := exists_deliver_editor e call
  rw [hdelivered]
  obtain ⟨due, owner, generation⟩ := call
  cases owner <;> rfl

/-! ### Time -/

/-- What each of some calls keeps, they keep as they come one after the other. -/
lemma deliverAll_kept {P : Editor → Prop} {calls : List (Call TimerName)}
    (hcall : ∀ e, ∀ call ∈ calls, P e → P (e.deliver call).editor) {e : Editor} (h : P e) :
    P (e.deliverAll calls).editor := by
  induction calls generalizing e with
  | nil => exact h
  | cons call calls ih =>
    have hfirst := hcall e call List.mem_cons_self h
    exact Outcome.andThen_editor hfirst fun _ =>
      ih (fun x other hother => hcall x other (List.mem_cons_of_mem _ hother)) hfirst

/-- What each call keeps, and the time alone does not change, time that passes keeps. -/
lemma advance_kept {P : Editor → Prop} (hcall : ∀ e call, P e → P (e.deliver call).editor)
    (htime : ∀ e now, P e → P { e with clock := { e.clock with now := now } }) {e : Editor}
    (h : P e) (span : Int) : P (e.advance span).editor := by
  have hdelivered : P (e.deliverAll (e.clock.dueBy (e.clock.now + span))).editor :=
    deliverAll_kept (fun x call _ => hcall x call) h
  exact Outcome.andThen_editor hdelivered fun _ => htime _ _ hdelivered

lemma config_advance (e : Editor) (span : Int) : (e.advance span).editor.config = e.config :=
  advance_kept (P := fun x => x.config = e.config)
    (fun x call hx => (config_deliver x call).trans hx) (fun _ _ hx => hx) rfl span

end Workflow.Editor
