import Workflow.Proofs.Editor.Copying
import Workflow.Proofs.Editor.Waiting

/-!
# Undo and redo that last

An undo or a redo calls off the recording that is to come, but only where the signals tell that the
state is another one. Where they do not, the recording makes an entry of the restored state after
all, and what could be redone is lost.
-/

namespace Workflow

/-- The opposite direction. -/
def Travel.reversed : Travel → Travel
  | .back => .forth
  | .forth => .back

namespace Editor

/--
Whether a step along the history overlooks a recording that is to come: the signals do not tell the
restored state from what the recorder saw last, so that nothing calls the recording off, and the
recording is not dropped as a repetition either.
-/
def Overlooks (e : Editor) (m : Travel) : Prop :=
  e.recordingTimer.pending = true ∧ e.inAction = false ∧
    ∃ left s rest, e.snapshot = .ok left ∧ e.ahead m = s :: rest ∧
      (e.watching = true → s.graph.signals = .ok e.signals) ∧
      (e.shift m left rest).unchanged s = .ok false

variable {e : Editor}

/-! ### The recorder's reaction -/

lemma recordingTimer_autosaverReacts (e : Editor) (change : Change) :
    (e.autosaverReacts change).recordingTimer = e.recordingTimer := by
  rw [autosaverReacts]
  split_ifs
  · exact timer_startTimer_of_ne { e with unsaved := some e.exported }
      (by decide : TimerName.recording ≠ .saving)
  · rfl

/-- Within the window of undo and redo, a recording stays to come only if no signal changed. -/
lemma pending_recorderReacts (happlying : e.applying = true)
    (hok : e.recorderReacts.answer = .ok ()) :
    e.recorderReacts.editor.recordingTimer.pending = true ↔
      e.recordingTimer.pending = true ∧
        (e.watching = true → e.state.graph.signals = .ok e.signals) := by
  rw [recorderReacts] at hok ⊢
  cases hwatching : e.watching with
  | false => simp [done]
  | true =>
    cases hsignals : e.state.graph.signals with
    | error reason => simp [hwatching, hsignals, fail] at hok
    | ok signals =>
      by_cases hsame : signals = e.signals
      · simp [hsame, done]
      · simp [hsame, happlying, done, cancelTimer, setTimer, timer, Timer.cancel]

lemma pending_announce {change : Change} (happlying : e.applying = true)
    (hok : (e.announce change).answer = .ok ()) :
    (e.announce change).editor.recordingTimer.pending = true ↔
      e.recordingTimer.pending = true ∧
        (e.watching = true → e.state.graph.signals = .ok e.signals) := by
  obtain ⟨_, hrecorder, -⟩ := Outcome.andThen_answer_ok hok
  rw [← pending_recorderReacts happlying hrecorder, announce, Outcome.andThen_of_ok hrecorder]
  simp only [done, recordingTimer_autosaverReacts]

/-! ### What a step leaves behind -/

/-- What a step that is taken finds and leaves. -/
lemma travel_taken {m : Travel} (h : (e.travel m).answer = .ok true) :
    ∃ left s rest, e.snapshot = .ok left ∧ e.ahead m = s :: rest ∧
      (e.travel m).editor.still
        = { e.shift m left rest with applying := true, state := s, misfits := {} }.still ∧
      ((e.travel m).editor.recordingTimer.pending = true ↔
        e.recordingTimer.pending = true ∧
          (e.watching = true → s.graph.signals = .ok e.signals)) := by
  obtain ⟨hcan, hne⟩ := canTravel_of_answer h
  obtain ⟨s, rest, hahead⟩ := List.exists_cons_of_ne_nil hne
  obtain ⟨left, hsnapshot⟩ := hcan
  refine ⟨left, s, rest, hsnapshot, hahead, still_travel hahead hsnapshot, ?_⟩
  rw [travel_eq hahead hsnapshot] at h ⊢
  obtain ⟨-, ⟨⟩, hok⟩ := Outcome.answering_answer_ok.1 h
  have happlying : e.beginApplying.applying = true :=
    (congrArg Editor.applying (still_beginApplying e) :)
  have hpending := pending_announce (by cases m <;> exact happlying) hok
  cases m <;> exact hpending

/-- A recording survives a step if and only if the step overlooks it. -/
lemma willRecord_travel_iff (hcopies : e.HoldsCopies) {m : Travel}
    (h : (e.travel m).answer = .ok true) :
    (e.travel m).editor.WillRecord ↔ e.Overlooks m := by
  obtain ⟨left, s, rest, hsnapshot, hahead, hstill, hpending⟩ := travel_taken h
  have haction : (e.travel m).editor.inAction = e.inAction := by
    refine (congrArg Editor.inAction hstill :).trans ?_
    cases m <;> rfl
  have hafter : ∀ t, (e.travel m).editor.Records t ↔
      s = t ∧ (e.shift m left rest).unchanged t = .ok false := by
    intro t
    have hmisfits : (e.travel m).editor.misfits = {} := congrArg Editor.misfits hstill
    have hstate : (e.travel m).editor.state = s := congrArg Editor.state hstill
    have hpast : (e.travel m).editor.past = (e.shift m left rest).past :=
      (congrArg Editor.past hstill :)
    have hcopied : s.IsCopyable e.copyRoom := hcopies.ahead m s (by simp [hahead])
    rw [Records, snapshot_of_misfits hmisfits, hstate, copyRoom_travel, if_pos hcopied, unchanged,
      hpast, unchanged]
    simp only [Except.ok.injEq]
  rw [WillRecord, hpending, haction]
  constructor
  · rintro ⟨⟨hwas, hsignals⟩, hidle, t, ht⟩
    obtain ⟨rfl, hunchanged⟩ := (hafter t).1 ht
    exact ⟨hwas, hidle, left, s, rest, hsnapshot, hahead, hsignals, hunchanged⟩
  · rintro ⟨hwas, hidle, left', s', rest', hsnapshot', hahead', hsignals, hunchanged⟩
    obtain rfl := Except.ok.inj (hsnapshot.symm.trans hsnapshot')
    obtain ⟨rfl, rfl⟩ := List.cons.inj (hahead.symm.trans hahead')
    exact ⟨⟨hwas, hsignals⟩, hidle, s, (hafter s).2 ⟨rfl, hunchanged⟩⟩

/-- The state that a step leaves lies ahead on the way back. -/
lemma ahead_reversed_travel {m : Travel} {left : EditorState} (h : (e.travel m).answer = .ok true)
    (hsnapshot : e.snapshot = .ok left) :
    (e.travel m).editor.ahead m.reversed = left :: e.ahead m.reversed := by
  obtain ⟨left', s, rest, hsnapshot', -, hstill, -⟩ := travel_taken h
  obtain rfl := Except.ok.inj (hsnapshot.symm.trans hsnapshot')
  cases m with
  | back => exact (congrArg Editor.future hstill :)
  | forth => exact (congrArg Editor.past hstill :)

/-! ### The way back -/

lemma Rests.ahead {e' : Editor} (h : e.Rests e') (m : Travel) : e'.ahead m = e.ahead m := by
  cases m with
  | back => exact h.past
  | forth => exact h.future

lemma Rests.timeline {e' : Editor} (h : e.Rests e') : e'.timeline = e.timeline := by
  rw [Editor.timeline, Editor.timeline, h.past, h.future, h.present]

lemma Rests.canTravel {e' : Editor} (h : e.Rests e') (hcan : e.CanTravel) : e'.CanTravel := by
  rw [CanTravel, h.snapshot]
  exact hcan

/-- From an editor that rests after a step, the way back leads to where the step began. -/
lemma cursor_travel_reversed (hcopies : e.HoldsCopies) {e' : Editor} {m : Travel}
    (h : (e.travel m).answer = .ok true) (hrests : (e.travel m).editor.Rests e') :
    (e'.travel m.reversed).editor.cursor = e.cursor := by
  obtain ⟨hcan, hne⟩ := canTravel_of_answer h
  obtain ⟨left, hsnapshot⟩ := hcan
  have hcan' := hrests.canTravel (canTravel_travel ⟨left, hsnapshot⟩ (hcopies.ahead m))
  have hne' : e'.ahead m.reversed ≠ [] := by
    simp [hrests.ahead, ahead_reversed_travel h hsnapshot]
  have hcursor : e'.cursor = (e.travel m).editor.cursor := congrArg List.length hrests.past
  cases m with
  | back =>
    have hback := cursor_travel_back ⟨left, hsnapshot⟩ hne
    exact (cursor_travel_forth hcan' hne').trans (hcursor ▸ hback)
  | forth =>
    have hback := cursor_travel_back hcan' hne'
    have hforth := cursor_travel_forth ⟨left, hsnapshot⟩ hne
    rw [hcursor, hforth] at hback
    exact Nat.succ.inj hback

/--
An undo or a redo lasts, whatever happens while the editor is left alone, unless it overlooks a
recording that is to come. In that case the restored state becomes an entry of history once enough
time has passed, or, on a delay without end, once the call comes through after all, and what could
be redone is lost. The graph stays as it was restored either way.
-/
theorem travel_lasts_unless_overlooks (h : e.Reachable) {m : Travel}
    (htaken : (e.travel m).answer = .ok true) :
    let after := (e.travel m).editor
    (∀ events, (after.undergoAll events).state = after.state) ∧
    (¬e.Overlooks m → ∀ events,
      (after.undergoAll events).past = after.past ∧
      (after.undergoAll events).future = after.future ∧
      let restored := ((after.undergoAll events).travel m.reversed).editor
      restored.past = e.past ∧ restored.future = e.future ∧ restored.snapshot = e.snapshot) ∧
    (e.Overlooks m → ∃ events : List Event,
      (e.delay .recording ≠ .endless → ∃ spans : List Nat, events = spans.map .time) ∧
      (after.undergoAll events).past = (after.push after.state).past ∧
      (after.undergoAll events).future = [] ∧
      ((after.undergoAll events).past ≠ after.past ∨
        (after.undergoAll events).future ≠ after.future)) := by
  intro after
  refine ⟨state_undergoAll after, fun hnot events => ?_, fun hoverlooks => ?_⟩
  · have hrests : after.Rests (after.undergoAll events) :=
      rests_undergoAll (fun hwill => hnot ((willRecord_travel_iff h.holdsCopies htaken).1 hwill))
        events
    have htimeline : ((after.undergoAll events).travel m.reversed).editor.timeline = e.timeline :=
      (timeline_travel _ _).trans (hrests.timeline.trans (timeline_travel e m))
    obtain ⟨hpast, hfuture, hpresent⟩ :=
      eq_of_timeline_eq htimeline (cursor_travel_reversed h.holdsCopies htaken hrests)
    have hroom : ((after.undergoAll events).travel m.reversed).editor.copyRoom = e.copyRoom :=
      (copyRoom_travel _ _).trans (hrests.copyRoom.trans (copyRoom_travel e m))
    exact ⟨hrests.past, hrests.future, hpast, hfuture, snapshot_congr hpresent hroom⟩
  · have hwill : after.WillRecord := (willRecord_travel_iff h.holdsCopies htaken).2 hoverlooks
    have hscheduled : after.Scheduled := h.scheduled.travel m
    obtain ⟨left, s, rest, hsnapshot, -, hstill, -⟩ := travel_taken htaken
    obtain ⟨t, ht⟩ := hwill.2.2
    have hmisfits : after.misfits = {} := congrArg Editor.misfits hstill
    obtain rfl : after.state = t := Reading.ok.inj
      ((present_of_misfits hmisfits).symm.trans (snapshot_eq_ok_iff.1 ht.1).1)
    obtain ⟨events, ⟨hpushed, -⟩, hspans⟩ := exists_undergoAll_recordedAs hwill ht hscheduled
    have hconfig : after.config = e.config := (keptByWork_config e.config).travel rfl m
    have hdelay : after.delay .recording = e.delay .recording := by
      rw [Editor.delay, Editor.delay, hconfig]
    have hleft : after.past ≠ [] ∨ after.future ≠ [] := by
      have hahead := ahead_reversed_travel htaken hsnapshot
      cases m with
      | back => exact .inr (by simp [show after.future = left :: e.future from hahead])
      | forth => exact .inl (by simp [show after.past = left :: e.past from hahead])
    refine ⟨events, hdelay ▸ hspans, hpushed.past, hpushed.future, ?_⟩
    rw [hpushed.past, hpushed.future]
    exact push_ne ht hleft

/-- An editor that was given a node and recorded it at once, while the recorder still waits. -/
def freshEntry : Editor :=
  ((new {} false 0).perform (.addNode (.str "start") .null .null)).perform (.record false)

/-- The undo of a fresh entry leaves the node in place, and in time it can no longer be redone. -/
theorem travel_lasts_unless_overlooks_freshEntry :
    freshEntry.Reachable ∧ freshEntry.undo.answer = .ok true ∧ freshEntry.Overlooks .back ∧
      ∃ spans, (freshEntry.undo.editor.wait spans).future = [] ∧
        freshEntry.undo.editor.future ≠ [] := by
  have hreachable : freshEntry.Reachable :=
    ((Reachable.opened {} false 0 {} .standard).after _).after _
  have htaken : (freshEntry.travel .back).answer = .ok true := rfl
  have hoverlooks : freshEntry.Overlooks .back :=
    ⟨rfl, rfl, freshEntry.state, freshEntry.state, [], rfl, rfl, fun _ => rfl, rfl⟩
  obtain ⟨-, -, hlost⟩ := travel_lasts_unless_overlooks hreachable htaken
  obtain ⟨events, hspans, -, hnone, -⟩ := hlost hoverlooks
  obtain ⟨spans, rfl⟩ := hspans (by decide +kernel)
  have hahead := ahead_reversed_travel htaken rfl
  have hfuture : freshEntry.undo.editor.future = freshEntry.state :: freshEntry.future := hahead
  exact ⟨hreachable, htaken, hoverlooks, spans, hnone, by simp [hfuture]⟩

end Editor

end Workflow
