import Workflow.Proofs.Editor.Punctual

/-!
# Waiting

What becomes of an editor that nobody uses, while time passes and calls come through. Unless a
recording is to come that will make an entry of history, the editor rests. Otherwise the entry is
made once enough time has passed.
-/

namespace Workflow

/-- What happens to an editor by itself. -/
inductive Editor.Event where
  /-- The clock is advanced by some milliseconds. -/
  | time (span : Nat)
  /-- A call comes through, be it early, late, a second time or after it was called off. -/
  | call (call : Call TimerName)

namespace Editor

/-- The editor after an event. -/
def undergo (e : Editor) : Event → Editor
  | .time span => (e.advance span).editor
  | .call call => (e.deliver call).editor

/-- The editor after some events, one after the other. -/
def undergoAll (e : Editor) (events : List Event) : Editor :=
  events.foldl undergo e

/-- The editor after some spans of time, one after the other. -/
def wait (e : Editor) (spans : List Nat) : Editor :=
  e.undergoAll (spans.map .time)

/-- What each call keeps, and the time alone does not change, holds after any events. -/
lemma undergoAll_kept {P : Editor → Prop} (hcall : ∀ e call, P e → P (e.deliver call).editor)
    (htime : ∀ e now, P e → P { e with clock := { e.clock with now := now } }) {e : Editor}
    (h : P e) (events : List Event) : P (e.undergoAll events) := by
  induction events generalizing e with
  | nil => exact h
  | cons event events ih =>
    apply ih (e := e.undergo event)
    cases event with
    | time span => exact advance_kept hcall htime h span
    | call call => exact hcall e call h

/-! ### Rest -/

/--
What history holds and what it would record stay as they were, and no recording is awaited that was
not awaited before.
-/
structure Rests (e e' : Editor) : Prop where
  config : e'.config = e.config
  copyRoom : e'.copyRoom = e.copyRoom
  state : e'.state = e.state
  misfits : e'.misfits = e.misfits
  past : e'.past = e.past
  future : e'.future = e.future
  inAction : e'.inAction = e.inAction
  pending : e'.recordingTimer.pending = true → e.recordingTimer.pending = true

/-- Whether a recording is to come that will make an entry of history. -/
def WillRecord (e : Editor) : Prop :=
  e.recordingTimer.pending = true ∧ e.inAction = false ∧ ∃ s, e.Records s

section Rests

variable {e e' e'' : Editor}

lemma Rests.refl (e : Editor) : e.Rests e :=
  ⟨rfl, rfl, rfl, rfl, rfl, rfl, rfl, id⟩

lemma Rests.trans (h : e.Rests e') (h' : e'.Rests e'') : e.Rests e'' where
  config := h'.config.trans h.config
  copyRoom := h'.copyRoom.trans h.copyRoom
  state := h'.state.trans h.state
  misfits := h'.misfits.trans h.misfits
  past := h'.past.trans h.past
  future := h'.future.trans h.future
  inAction := h'.inAction.trans h.inAction
  pending := fun hpending => h.pending (h'.pending hpending)

/-- The clock alone decides nothing. -/
lemma Rests.setClock (h : e.Rests e') (clock : Clock TimerName) :
    e.Rests { e' with clock := clock } :=
  ⟨h.config, h.copyRoom, h.state, h.misfits, h.past, h.future, h.inAction, h.pending⟩

lemma Rests.present (h : e.Rests e') : e'.present = e.present := by
  rw [Editor.present, Editor.present, h.state, h.misfits]

lemma Rests.snapshot (h : e.Rests e') : e'.snapshot = e.snapshot :=
  snapshot_congr h.present h.copyRoom

lemma Rests.delay (h : e.Rests e') : e'.delay = e.delay := by
  funext name
  cases name <;> simp only [Editor.delay, h.config]

lemma Rests.records_iff (h : e.Rests e') (s : EditorState) : e'.Records s ↔ e.Records s := by
  rw [Records, Records, h.snapshot, unchanged, unchanged, h.past]

lemma Rests.push (h : e.Rests e') (s : EditorState) :
    (e.push s).Rests (e'.push s) where
  config := h.config
  copyRoom := h.copyRoom
  state := h.state
  misfits := h.misfits
  past := by simp only [Editor.push, h.config, h.past]
  future := rfl
  inAction := h.inAction
  pending := h.pending

lemma Rests.willRecord (h : e.Rests e') (hwill : e'.WillRecord) : e.WillRecord := by
  obtain ⟨hpending, haction, s, hs⟩ := hwill
  exact ⟨h.pending hpending, h.inAction ▸ haction, s, (h.records_iff s).1 hs⟩

/-! ### Calls -/

lemma rests_taken (e : Editor) (call : Call TimerName) : e.Rests (e.taken call) := by
  obtain ⟨due, owner, generation⟩ := call
  cases owner with
  | applying | saving => exact ⟨rfl, rfl, rfl, rfl, rfl, rfl, rfl, id⟩
  | recording =>
    refine ⟨rfl, rfl, rfl, rfl, rfl, rfl, rfl, fun hpending => ?_⟩
    change (e.recordingTimer.deliver generation).pending = true at hpending
    rw [Timer.deliver] at hpending
    split_ifs at hpending
    exact hpending

lemma rests_fire {name : TimerName}
    (h : name = .recording → e.inAction = true ∨ ∀ s, ¬e.Records s) :
    e.Rests (e.fire name).editor := by
  cases name with
  | applying => exact ⟨rfl, rfl, rfl, rfl, rfl, rfl, rfl, id⟩
  | recording =>
    rw [fire]
    split_ifs with haction
    · exact Rests.refl e
    · have hrecords := (h rfl).resolve_left haction
      rw [Outcome.answering_editor, recordState_of_not_records hrecords]
      exact Rests.refl e
  | saving =>
    obtain ⟨unsaved, files, hflushed⟩ := exists_flush_editor e
    change e.Rests e.flush.editor
    rw [hflushed]
    exact ⟨rfl, rfl, rfl, rfl, rfl, rfl, rfl, id⟩

/-- Only the call that a recording awaits disturbs an editor, and only if it makes an entry. -/
lemma rests_deliver {call : Call TimerName}
    (h : call.owner = .recording → e.recordingTimer.expects call.generation = true →
      ¬e.WillRecord) :
    e.Rests (e.deliver call).editor := by
  cases hexpects : (e.timer call.owner).expects call.generation with
  | false =>
    rw [deliver_of_stale hexpects]
    exact (Rests.refl e).setClock _
  | true =>
    rw [deliver_of_expects hexpects]
    have htaken := rests_taken e call
    refine htaken.trans (rests_fire fun howner => ?_)
    have hawaited : e.recordingTimer.expects call.generation = true := by
      rw [howner] at hexpects
      exact hexpects
    rw [htaken.inAction]
    by_contra hnot
    simp only [not_or, not_forall, not_not, Bool.not_eq_true] at hnot
    obtain ⟨haction, s, hs⟩ := hnot
    exact h howner hawaited ⟨pending_of_expects hawaited, haction, s, (htaken.records_iff s).1 hs⟩

lemma Rests.deliver {x : Editor} (h : e.Rests x) (hnot : ¬e.WillRecord)
    (call : Call TimerName) : e.Rests (x.deliver call).editor :=
  h.trans (rests_deliver fun _ _ hwill => hnot (h.willRecord hwill))

/-- An editor that will record nothing rests, whatever happens. -/
theorem rests_undergoAll (h : ¬e.WillRecord) (events : List Event) :
    e.Rests (e.undergoAll events) :=
  undergoAll_kept (fun _ call hx => hx.deliver h call) (fun _ _ hx => hx.setClock _) (Rests.refl e)
    events

end Rests

/-! ### The graph -/

section Kept

variable {e : Editor}

lemma state_deliver (e : Editor) (call : Call TimerName) :
    (e.deliver call).editor.state = e.state := by
  obtain ⟨_, _, _, _, _, hdelivered⟩ := exists_deliver_editor e call
  rw [hdelivered]
  exact (rests_taken e call).state

/-- No event changes the state, be it recorded or not. -/
theorem state_undergoAll (e : Editor) (events : List Event) :
    (e.undergoAll events).state = e.state :=
  undergoAll_kept (P := fun x => x.state = e.state)
    (fun x call hx => (state_deliver x call).trans hx) (fun _ _ hx => hx) rfl events

/-! ### The entry that is made -/

/-- What is recorded differs from the present: an entry is new, or what lay ahead is lost. -/
lemma push_ne {s : EditorState} (h : e.Records s) (hne : e.past ≠ [] ∨ e.future ≠ []) :
    (e.push s).past ≠ e.past ∨ (e.push s).future ≠ e.future := by
  by_contra hsame
  simp only [not_or, not_not] at hsame
  obtain ⟨hpast, hfuture⟩ := hsame
  have hnone : e.future = [] := hfuture.symm
  obtain ⟨newest, older, hcons⟩ :=
    List.exists_cons_of_ne_nil (hne.resolve_right fun hsome => hsome hnone)
  have hnewest : s = newest := by
    have hhead : (e.push s).past.head? = some s := by
      simp only [push, hcons]
      split_ifs <;> simp
    rw [hpast, hcons] at hhead
    exact (Option.some.inj hhead).symm
  -- A state that is the newest entry already is dropped as a repetition of it.
  have hunchanged := h.2
  rw [hnewest, unchanged, hcons] at hunchanged
  cases hprint : newest.fingerprint <;> simp [hprint, bind, Except.bind] at hunchanged

/-- The editor has recorded its state, if there was anything to record, and awaits no recording. -/
def Recorded (e e' : Editor) : Prop :=
  (e.recordState false).editor.Rests e' ∧ e'.recordingTimer.pending = false

/-- The editor has made an entry of what was to be recorded, and nothing more is to come. -/
def RecordedAs (e : Editor) (s : EditorState) (e' : Editor) : Prop :=
  (e.push s).Rests e' ∧ e'.recordingTimer.pending = false

/-- The editor still waits for the recording, and holds fewer calls than before. -/
def StillWaits (e e' : Editor) : Prop :=
  e.Rests e' ∧ e'.recordingTimer = e.recordingTimer ∧ e'.Scheduled ∧
    e'.clock.calls.length < e.clock.calls.length

/-- Who rests records what would have been recorded. -/
lemma Rests.recordState {e' : Editor} (h : e.Rests e') (force : Bool) :
    (e.recordState force).editor.Rests (e'.recordState force).editor ∧
      (e'.recordState force).answer = (e.recordState force).answer := by
  simp only [Editor.recordState, withSnapshot, h.snapshot]
  cases e.snapshot with
  | error f => exact ⟨h, rfl⟩
  | ok s =>
    have hunchanged : e'.unchanged s = e.unchanged s := by rw [unchanged, unchanged, h.past]
    dsimp only
    rw [hunchanged]
    split_ifs
    · exact ⟨h.push s, rfl⟩
    · cases e.unchanged s with
      | error reason => exact ⟨h, rfl⟩
      | ok same =>
        cases same with
        | true => exact ⟨h, rfl⟩
        | false => exact ⟨h.push s, rfl⟩

/-- Once its own call came through, no recording is to come. -/
lemma not_pending_deliver {call : Call TimerName} (howner : call.owner = .recording)
    (hexpects : e.recordingTimer.expects call.generation = true) :
    (e.deliver call).editor.recordingTimer.pending = false := by
  obtain ⟨_, _, _, _, _, hdelivered⟩ := exists_deliver_editor e call
  rw [hdelivered]
  obtain ⟨due, owner, generation⟩ := call
  cases howner
  change (e.recordingTimer.deliver generation).pending = false
  rw [Timer.deliver, if_pos hexpects]

lemma deliver_recording (hidle : e.inAction = false) {call : Call TimerName}
    (howner : call.owner = .recording)
    (hexpects : e.recordingTimer.expects call.generation = true) :
    e.Recorded (e.deliver call).editor := by
  refine ⟨?_, not_pending_deliver howner hexpects⟩
  obtain ⟨due, owner, generation⟩ := call
  cases howner
  have htaken := rests_taken e ⟨due, .recording, generation⟩
  have hdelivered := @deliver_of_expects e ⟨due, .recording, generation⟩ hexpects
  rw [hdelivered, fire, htaken.inAction, hidle, if_neg Bool.false_ne_true,
    Outcome.answering_editor]
  exact (htaken.recordState false).1

lemma length_calls_deliver_le (e : Editor) (call : Call TimerName) :
    (e.deliver call).editor.clock.calls.length ≤ e.clock.calls.length := by
  rw [calls_deliver]
  exact List.length_filter_le _ _

/-- A call that fails was on the clock, unless it was never to fall due, and no longer is. -/
lemma length_calls_deliver_lt (h : e.Scheduled) {call : Call TimerName} {f : EditorFailure}
    (hends : e.delay call.owner ≠ .endless) (hfail : (e.deliver call).answer = .error f) :
    (e.deliver call).editor.clock.calls.length < e.clock.calls.length := by
  cases hexpects : (e.timer call.owner).expects call.generation with
  | false =>
    rw [deliver_of_stale hexpects] at hfail
    cases hfail
  | true =>
    obtain ⟨other, hmem, howner⟩ := h.awaited call.owner (pending_of_expects hexpects) hends
    have hother := h.expected other hmem
    rw [howner] at hother
    have hgeneration : other.generation = call.generation :=
      (generation_of_expects hother).symm.trans (generation_of_expects hexpects)
    rw [calls_deliver]
    refine List.length_filter_lt_length_iff_exists.2 ⟨other, hmem, ?_⟩
    simp [howner, hgeneration]

/-- Any other call leaves the recording to come. -/
lemma recordingTimer_deliver {call : Call TimerName}
    (h : call.owner = .recording → e.recordingTimer.expects call.generation = false) :
    (e.deliver call).editor.recordingTimer = e.recordingTimer := by
  obtain ⟨_, _, _, _, _, hdelivered⟩ := exists_deliver_editor e call
  rw [hdelivered]
  obtain ⟨due, owner, generation⟩ := call
  cases owner with
  | applying | saving => rfl
  | recording => exact if_neg (Bool.eq_false_iff.1 (h rfl))

/-! ### In time -/

/-- Once the state is recorded, no call records it again. -/
lemma Recorded.deliver {x : Editor} (h : e.Recorded x) (call : Call TimerName) :
    e.Recorded (x.deliver call).editor := by
  obtain ⟨hrests, hnone⟩ := h
  have hrests' : x.Rests (x.deliver call).editor :=
    rests_deliver fun _ _ hwill => Bool.false_ne_true (hnone.symm.trans hwill.1)
  refine ⟨hrests.trans hrests', Bool.eq_false_iff.2 fun hpending => ?_⟩
  exact Bool.false_ne_true (hnone.symm.trans (hrests'.pending hpending))

/-- Who rests before the state is recorded has no part in what is recorded. -/
lemma Rests.recorded {e' x : Editor} (h : e.Rests e') (hrecorded : e'.Recorded x) :
    e.Recorded x :=
  ⟨(h.recordState false).1.trans hrecorded.1, hrecorded.2⟩

/-- Once the call of the recording is delivered, the calls after it find the state recorded. -/
lemma deliverAll_cons_recording {call : Call TimerName} {calls : List (Call TimerName)}
    (hidle : e.inAction = false) (howner : call.owner = .recording)
    (hexpects : e.recordingTimer.expects call.generation = true)
    (hlater : ∀ other ∈ calls, call.due ≤ other.due) :
    e.Recorded (e.deliverAll (call :: calls)).editor ∧
      call.due ≤ (e.deliverAll (call :: calls)).editor.clock.now := by
  have hrecorded : e.Recorded (e.deliver call).editor ∧
      call.due ≤ (e.deliver call).editor.clock.now :=
    ⟨deliver_recording hidle howner hexpects, by rw [now_deliver]⟩
  rw [deliverAll]
  refine Outcome.andThen_editor
    (P := fun x => e.Recorded x ∧ call.due ≤ x.clock.now) hrecorded fun _ => ?_
  refine deliverAll_kept (P := fun x => e.Recorded x ∧ call.due ≤ x.clock.now)
    (fun x other hother hx => ⟨hx.1.deliver other, ?_⟩) hrecorded
  rw [now_deliver]
  exact hlater other hother

/--
As calls are delivered in order, that of the recording among them, the state is recorded, and the
time of the recording has come. If a call before it fails, the recording is still to come, and its
time has not passed.
-/
lemma deliverAll_recording {calls : List (Call TimerName)} {due : Int} (hidle : e.inAction = false)
    (hscheduled : e.Scheduled) (hsorted : calls.Pairwise fun a b => a.due ≤ b.due)
    (hends : ∀ call ∈ calls, e.delay call.owner ≠ .endless)
    (hcall : ∃ call ∈ calls, call.owner = .recording ∧ call.due = due ∧
      e.recordingTimer.expects call.generation = true)
    (honly : ∀ call ∈ calls, call.owner = .recording → call.due = due) :
    (e.Recorded (e.deliverAll calls).editor ∧ due ≤ (e.deliverAll calls).editor.clock.now) ∨
      (e.StillWaits (e.deliverAll calls).editor ∧ (e.deliverAll calls).editor.clock.now ≤ due ∧
        (e.deliverAll calls).answer ≠ .ok ()) := by
  induction calls generalizing e with
  | nil => simp at hcall
  | cons call calls ih =>
    obtain ⟨hfirst, hlater⟩ := List.pairwise_cons.1 hsorted
    by_cases hnow : call.owner = .recording ∧ e.recordingTimer.expects call.generation = true
    · obtain rfl : call.due = due := honly call List.mem_cons_self hnow.1
      exact .inl (deliverAll_cons_recording hidle hnow.1 hnow.2 hfirst)
    · rw [deliverAll]
      have hstale : call.owner = .recording →
          e.recordingTimer.expects call.generation = false :=
        fun howner => Bool.eq_false_iff.2 fun hexpects => hnow ⟨howner, hexpects⟩
      have hrests : e.Rests (e.deliver call).editor :=
        rests_deliver fun howner hexpects => absurd ⟨howner, hexpects⟩ hnow
      have htimer := recordingTimer_deliver hstale
      obtain ⟨other, hmem, howner, hdue, hexpects⟩ := hcall
      have hmem' : other ∈ calls := by
        rcases List.mem_cons.1 hmem with rfl | hmem
        · exact absurd ⟨howner, hexpects⟩ hnow
        · exact hmem
      cases hanswer : (e.deliver call).answer with
      | error f =>
        rw [Outcome.andThen_of_error hanswer]
        refine .inr ⟨⟨hrests, htimer, hscheduled.deliver call,
          length_calls_deliver_lt hscheduled (hends call List.mem_cons_self) hanswer⟩, ?_, by simp⟩
        rw [now_deliver]
        exact hdue ▸ hfirst other hmem'
      | ok =>
        rw [Outcome.andThen_of_ok hanswer]
        rcases ih (hrests.inAction.trans hidle) (hscheduled.deliver call) hlater
            (fun later hmem => hrests.delay ▸ hends later (List.mem_cons_of_mem _ hmem))
            ⟨other, hmem', howner, hdue, htimer ▸ hexpects⟩
            (fun other hother => honly other (List.mem_cons_of_mem _ hother)) with
          ⟨hrecorded, htime⟩ | ⟨⟨hrests', htimer', hscheduled', hfewer⟩, htime⟩
        · exact .inl ⟨hrests.recorded hrecorded, htime⟩
        · exact .inr ⟨⟨hrests.trans hrests', htimer'.trans htimer, hscheduled',
            hfewer.trans_le (length_calls_deliver_le e call)⟩, htime⟩

/--
Waiting until a recording is due records the state, unless a call before it fails. That call is off
the clock then.
-/
lemma advance_recording {call : Call TimerName} (hidle : e.inAction = false)
    (hscheduled : e.Scheduled) (hcall : call ∈ e.clock.calls) (howner : call.owner = .recording)
    {span : Int} (hdue : call.due ≤ e.clock.now + span) :
    (e.Recorded (e.advance span).editor ∧ call.due ≤ (e.advance span).editor.clock.now) ∨
      (e.StillWaits (e.advance span).editor ∧ (e.advance span).editor.clock.now ≤ call.due ∧
        (e.advance span).answer ≠ .ok ()) := by
  have hexpects : e.recordingTimer.expects call.generation = true := by
    have := hscheduled.expected call hcall
    rwa [howner] at this
  have hdelivered := deliverAll_recording hidle hscheduled
    (e.delivers_dueBy (e.clock.now + span)).sorted
    (fun other hother => hscheduled.ended other (mem_dueBy_iff.1 hother).1)
    ⟨call, mem_dueBy_iff.2 ⟨hcall, hdue⟩, howner, rfl, hexpects⟩
    (fun other hother howner' => congrArg Call.due (hscheduled.eq_of_owner_eq
      (mem_dueBy_iff.1 hother).1 hcall (howner'.trans howner.symm)))
  rw [Editor.advance]
  dsimp only
  cases hanswer : (e.deliverAll (e.clock.dueBy (e.clock.now + span))).answer with
  | error f =>
    rw [Outcome.andThen_of_error hanswer]
    simpa [hanswer] using hdelivered
  | ok =>
    rw [Outcome.andThen_of_ok hanswer]
    obtain ⟨hrecorded, -⟩ := hdelivered.resolve_right fun hwaits => hwaits.2.2 hanswer
    exact .inl ⟨⟨hrecorded.1.setClock _, hrecorded.2⟩, hdue⟩

/-- A recording that is to come comes, once enough time has passed, unless its delay has no end. -/
lemma exists_wait_recorded (hpending : e.recordingTimer.pending = true)
    (hends : e.delay .recording ≠ .endless) (hidle : e.inAction = false)
    (hscheduled : e.Scheduled) :
    ∃ spans, e.Recorded (e.wait spans) := by
  induction hn : e.clock.calls.length using Nat.strong_induction_on generalizing e with
  | _ n ih =>
    obtain ⟨call, hcall, howner⟩ := hscheduled.awaited .recording hpending hends
    let span := (call.due - e.clock.now).toNat
    have hdue : call.due ≤ e.clock.now + span := by omega
    rcases advance_recording hidle hscheduled hcall howner hdue with
      ⟨hrecorded, -⟩ | ⟨⟨hrests, htimer, hscheduled', hfewer⟩, -⟩
    · exact ⟨[span], hrecorded⟩
    · -- each failure takes a call off the clock, so that at last the recording's own is left
      obtain ⟨spans, hrecorded⟩ := ih _ (hn ▸ hfewer) (htimer ▸ hpending)
        (hrests.delay ▸ hends) (hrests.inAction.trans hidle) hscheduled' rfl
      exact ⟨span :: spans, hrests.recorded hrecorded⟩

/-- What is to be recorded becomes an entry, once enough time has passed. -/
theorem exists_wait_recordedAs {s : EditorState} (h : e.WillRecord) (hs : e.Records s)
    (hends : e.delay .recording ≠ .endless) (hscheduled : e.Scheduled) :
    ∃ spans, e.RecordedAs s (e.wait spans) := by
  obtain ⟨spans, hrecorded⟩ := exists_wait_recorded h.1 hends h.2.1 hscheduled
  rw [Recorded, recordState_of_records hs] at hrecorded
  exact ⟨spans, hrecorded⟩

/--
What is to be recorded becomes an entry once its call comes through. All that takes is time, unless
the delay has no end.
-/
theorem exists_undergoAll_recordedAs {s : EditorState} (h : e.WillRecord) (hs : e.Records s)
    (hscheduled : e.Scheduled) :
    ∃ events : List Event, e.RecordedAs s (e.undergoAll events) ∧
      (e.delay .recording ≠ .endless → ∃ spans : List Nat, events = spans.map .time) := by
  by_cases hends : e.delay .recording = .endless
  · let call : Call TimerName := ⟨e.clock.now, .recording, e.recordingTimer.generation⟩
    have hexpects : e.recordingTimer.expects call.generation = true := by
      simp [call, Timer.expects, h.1]
    have hrecorded : e.Recorded (e.deliver call).editor := deliver_recording h.2.1 rfl hexpects
    rw [Recorded, recordState_of_records hs] at hrecorded
    exact ⟨[.call call], hrecorded, fun hends' => absurd hends hends'⟩
  · obtain ⟨spans, hrecorded⟩ := exists_wait_recordedAs h hs hends hscheduled
    exact ⟨spans.map .time, hrecorded, fun _ => ⟨spans, rfl⟩⟩

end Kept

end Editor

end Workflow
