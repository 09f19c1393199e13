import Workflow.Proofs.Editor.Recording

/-!
# Bursts of edits

Edits that follow one another before the recorder's delay is over, with time passing in between and
with other edits among them that do not stir the recorder. It waits until the burst is over, and
then records the state once.
-/

namespace Workflow.Editor

/-- The editor after some operations, one after the other. -/
def performAll (e : Editor) (ops : List Operation) : Editor :=
  ops.foldl perform e

/-- The recorder watches, and nothing keeps it from recording what it sees. -/
structure Attentive (e : Editor) : Prop where
  watching : e.watching = true
  idle : e.inAction = false
  unapplied : e.applying = false

/--
Edits with time in between that begin with one that stirs the recorder. Each later one that stirs it
comes before the delay since the last such one is over. The time of the last one is given.
-/
inductive Burst (e : Editor) (delay : Int) : List Operation → Int → Prop where
  | begun {op : Operation} (hop : op.IsEdit) (hstirs : e.Stirs op) :
      Burst e delay [op] e.clock.now
  | stirred {ops : List Operation} {last : Int} {op : Operation} (h : Burst e delay ops last)
      (hop : op.IsEdit) (hstirs : (e.performAll ops).Stirs op)
      (hsoon : (e.performAll ops).clock.now < last + delay) :
      Burst e delay (ops ++ [op]) (e.performAll ops).clock.now
  | unstirred {ops : List Operation} {last : Int} {op : Operation} (h : Burst e delay ops last)
      (hop : op.IsEdit) (hnot : ¬(e.performAll ops).Stirs op) : Burst e delay (ops ++ [op]) last
  | passed {ops : List Operation} {last : Int} (h : Burst e delay ops last) (span : Nat) :
      Burst e delay (ops ++ [.advance span]) last

/-- A recording is due at some time that has not passed, and history is as another editor has it. -/
structure Awaits (e : Editor) (due : Int) (x : Editor) : Prop where
  awaitsAt : x.AwaitsAt due
  past : x.past = e.past
  future : x.future = e.future
  now_le : x.clock.now ≤ due

section Burst

variable {e x : Editor} {delay due last : Int} {ops : List Operation} {op : Operation}

/-! ### Sessions -/

@[simp] lemma performAll_concat (e : Editor) (ops : List Operation) (op : Operation) :
    e.performAll (ops ++ [op]) = (e.performAll ops).perform op := by
  simp [performAll]

lemma Reachable.performAll (h : e.Reachable) (ops : List Operation) :
    (e.performAll ops).Reachable := by
  induction ops generalizing e with
  | nil => exact h
  | cons op ops ih => exact ih (h.after op)

lemma Attentive.fire (h : e.Attentive) (name : TimerName) : (e.fire name).editor.Attentive := by
  cases name with
  | applying => exact ⟨h.watching, h.idle, rfl⟩
  | recording =>
    obtain ⟨past, future, hrecorded⟩ := exists_recordState_editor e false
    rw [Editor.fire, h.idle, if_neg Bool.false_ne_true, Outcome.answering_editor, hrecorded]
    exact ⟨h.watching, h.idle, h.unapplied⟩
  | saving =>
    obtain ⟨unsaved, files, hflushed⟩ := exists_flush_editor e
    change e.flush.editor.Attentive
    rw [hflushed]
    exact ⟨h.watching, h.idle, h.unapplied⟩

lemma Attentive.deliver (h : e.Attentive) (call : Call TimerName) :
    (e.deliver call).editor.Attentive := by
  cases hexpects : (e.timer call.owner).expects call.generation with
  | false =>
    rw [deliver_of_stale hexpects]
    exact ⟨h.watching, h.idle, h.unapplied⟩
  | true =>
    rw [deliver_of_expects hexpects]
    apply Attentive.fire
    obtain ⟨due, owner, generation⟩ := call
    cases owner <;> exact ⟨h.watching, h.idle, h.unapplied⟩

lemma Attentive.advance (h : e.Attentive) (span : Int) : (e.advance span).editor.Attentive :=
  advance_kept (fun _ call hx => hx.deliver call)
    (fun _ _ hx => ⟨hx.watching, hx.idle, hx.unapplied⟩) h span

lemma mem_calls_advance {span : Int} {call : Call TimerName}
    (h : call ∈ (e.advance span).editor.clock.calls) : call ∈ e.clock.calls := by
  refine advance_kept (P := fun x => ∀ call ∈ x.clock.calls, call ∈ e.clock.calls)
    (fun x other hx call hcall => ?_) (fun _ _ hx => hx) (fun _ hcall => hcall) span call h
  rw [calls_deliver] at hcall
  exact hx call (List.mem_of_mem_filter hcall)

lemma now_advance_le (e : Editor) (span : Nat) :
    (e.advance span).editor.clock.now ≤ e.clock.now + span := by
  have hdelivered : (e.deliverAll (e.clock.dueBy (e.clock.now + span))).editor.clock.now
      ≤ e.clock.now + span := by
    refine deliverAll_kept (P := fun x => x.clock.now ≤ e.clock.now + span)
      (fun x call hcall _ => ?_) (Int.le_add_of_nonneg_right (Int.natCast_nonneg span))
    rw [now_deliver]
    exact (mem_dueBy_iff.1 hcall).2
  exact Outcome.andThen_editor (P := fun x => x.clock.now ≤ e.clock.now + span) hdelivered
    fun _ => le_refl _

lemma advance_early {span : Int}
    (h : ∀ call ∈ e.clock.calls, call.owner = .recording → e.clock.now + span < call.due) :
    e.Rests (e.advance span).editor ∧
      (e.advance span).editor.recordingTimer = e.recordingTimer := by
  let P : Editor → Prop := fun x => e.Rests x ∧ x.recordingTimer = e.recordingTimer
  have hdelivered : P (e.deliverAll (e.clock.dueBy (e.clock.now + span))).editor := by
    refine deliverAll_kept (fun x call hcall hx => ?_) ⟨Rests.refl e, rfl⟩
    obtain ⟨hmem, hdue⟩ := mem_dueBy_iff.1 hcall
    have hother : call.owner ≠ .recording := fun howner => (h call hmem howner).not_ge hdue
    exact ⟨hx.1.trans (rests_deliver fun howner => absurd howner hother),
      (recordingTimer_deliver fun howner => absurd howner hother).trans hx.2⟩
  exact Outcome.andThen_editor (P := P) hdelivered fun _ =>
    ⟨hdelivered.1.setClock _, hdelivered.2⟩

/-! ### One step -/

/-- What the reactions to a change keep, an edit keeps that does not stir the recorder. -/
lemma unstirred_kept {P : Editor → Prop} (hop : op.IsEdit) (hnot : ¬e.Stirs op)
    (hedited : ∀ serial state misfits,
      P { e with serial := serial, state := state, misfits := misfits })
    (hunsaved : ∀ x unsaved, P x → P { x with unsaved := unsaved })
    (hsaving : ∀ x, P x → P (x.startTimer .saving))
    (hannounced : ∀ x announced, P x → P { x with announced := announced }) :
    P (e.perform op) := by
  have hsame : ∀ signals, (e.perform op).state.graph.signals = .ok signals → signals = e.signals :=
    fun signals hsignals => by_contra fun hne => hnot ⟨signals, hsignals, hne⟩
  have hperform := edited_perform (e := e) hop
  generalize e.perform op = e' at hsame hperform
  cases hperform with
  | kept serial => exact hedited serial e.state e.misfits
  | @announced serial state misfits hstep change =>
    let edited : Editor := { e with serial := serial, state := state, misfits := misfits }
    have hstate : (edited.announce change).editor.state = state :=
      congrArg Editor.state (still_announce edited change)
    rw [hstate] at hsame
    -- the recorder is asked first and does nothing, so that only the autosaver is left
    refine announce_kept ?_ hunsaved hsaving hannounced
    rw [recorderReacts_editor_of_same (e := edited) hsame]
    exact hedited serial state misfits

lemma AwaitsAt.unstirred (h : e.AwaitsAt due) (hop : op.IsEdit) (hnot : ¬e.Stirs op) :
    (e.perform op).AwaitsAt due :=
  unstirred_kept (P := fun x => x.AwaitsAt due) hop hnot (fun _ _ _ => h) (fun _ _ hx => hx)
    (fun _ hx => hx.startTimer (by decide)) fun _ _ hx => hx

lemma not_pending_unstirred (h : e.recordingTimer.pending = false) (hop : op.IsEdit)
    (hnot : ¬e.Stirs op) : (e.perform op).recordingTimer.pending = false :=
  unstirred_kept (P := fun x => x.recordingTimer.pending = false) hop hnot (fun _ _ _ => h)
    (fun _ _ hx => hx) (fun _ hx => pending_startTimer hx (by decide)) fun _ _ hx => hx

lemma AwaitsAt.pending (h : e.AwaitsAt due) (hscheduled : e.Scheduled) :
    e.recordingTimer.pending = true := by
  obtain ⟨call, hcall, howner, -⟩ := h
  have hexpects := hscheduled.expected call hcall
  rw [howner] at hexpects
  exact pending_of_expects hexpects

/-- As long as the same recording is awaited, it is due at the same time. -/
lemma AwaitsAt.of_timer {e' : Editor} (h : e.AwaitsAt due) (hscheduled : e.Scheduled)
    (hscheduled' : e'.Scheduled) (hcalls : ∀ call ∈ e'.clock.calls, call ∈ e.clock.calls)
    (htimer : e'.recordingTimer = e.recordingTimer) (hdelay : e'.delay = e.delay) :
    e'.AwaitsAt due := by
  -- the timer has one call on the clock, which was there before and is due when it was
  have hpending : e'.recordingTimer.pending = true := htimer ▸ h.pending hscheduled
  obtain ⟨call, hcall, howner, hdue⟩ := h
  have hends : e'.delay .recording ≠ .endless := by
    rw [hdelay, ← howner]
    exact hscheduled.ended call hcall
  obtain ⟨other, hother, howner'⟩ := hscheduled'.awaited .recording hpending hends
  have hsame : other = call :=
    hscheduled.eq_of_owner_eq (hcalls other hother) hcall (howner'.trans howner.symm)
  exact ⟨other, hother, howner', hsame ▸ hdue⟩

lemma Awaits.unstirred (h : e.Awaits due x) (hop : op.IsEdit) (hnot : ¬x.Stirs op) :
    e.Awaits due (x.perform op) := by
  have hsame : x.Undisturbed (x.perform op) := undisturbed_perform hop
  exact ⟨h.awaitsAt.unstirred hop hnot, hsame.past.trans h.past, hsame.future.trans h.future,
    hsame.now.trans_le h.now_le⟩

/-- As time passes, the recording is made once it is due. -/
lemma Awaits.advance (h : e.Awaits due x) (hidle : x.inAction = false) (hscheduled : x.Scheduled)
    (span : Nat) :
    e.Awaits due (x.advance span).editor ∨
      x.Recorded (x.advance span).editor ∧ due ≤ (x.advance span).editor.clock.now := by
  have hrests : ∀ x' : Editor, x.Rests x' → x'.recordingTimer = x.recordingTimer →
      x' = (x.advance span).editor → x'.clock.now ≤ due → e.Awaits due x' := by
    rintro x' hrests htimer rfl hnow
    have hscheduled' : (x.advance span).editor.Scheduled :=
      keptByWork_scheduled.advance hscheduled _
    exact ⟨h.awaitsAt.of_timer hscheduled hscheduled' (fun _ => mem_calls_advance) htimer
      hrests.delay, hrests.past.trans h.past, hrests.future.trans h.future, hnow⟩
  obtain ⟨call, hcall, howner, hdue⟩ := h.awaitsAt
  by_cases hreached : call.due ≤ x.clock.now + span
  · -- time may still stop before, at a save that fails
    rcases advance_recording hidle hscheduled hcall howner hreached with
      hrecorded | ⟨hwaits, hnow, -⟩
    · exact .inr (hdue ▸ hrecorded)
    · exact .inl (hrests _ hwaits.1 hwaits.2.1 rfl (hdue ▸ hnow))
  · have hlate : ∀ other ∈ x.clock.calls, other.owner = .recording →
        x.clock.now + span < other.due := by
      intro other hother howner'
      rw [hscheduled.eq_of_owner_eq hother hcall (howner'.trans howner.symm)]
      exact not_le.1 hreached
    obtain ⟨hrests', htimer⟩ := advance_early hlate
    have hnow : (x.advance span).editor.clock.now ≤ due :=
      (now_advance_le x span).trans (hdue ▸ (not_le.1 hreached).le)
    exact .inl (hrests _ hrests' htimer rfl hnow)

/-! ### A whole burst -/

/--
The recording was made as time passed, and it was the only one: at the time that it was due, of the
state as it then was.
-/
structure Settled (e : Editor) (delay : Int) (ops : List Operation) (last : Int) : Prop where
  pending : (e.performAll ops).recordingTimer.pending = false
  le_now : last + delay ≤ (e.performAll ops).clock.now
  recorded : ∃ before, ∃ span : Nat, ∃ after, ops = before ++ .advance span :: after ∧
    e.Burst delay before last ∧ e.Awaits (last + delay) (e.performAll before) ∧
    ((e.performAll before).advance span).editor.recordingTimer.pending = false ∧
    last + delay ≤ ((e.performAll before).advance span).editor.clock.now ∧
    (e.performAll ops).past = ((e.performAll before).recordState false).editor.past ∧
    (e.performAll ops).future = ((e.performAll before).recordState false).editor.future

lemma Awaits.settled (h : e.Awaits (last + delay) (e.performAll ops))
    (hburst : e.Burst delay ops last) {span : Nat}
    (hrecorded : (e.performAll ops).Recorded ((e.performAll ops).advance span).editor)
    (hnow : last + delay ≤ ((e.performAll ops).advance span).editor.clock.now) :
    e.Settled delay (ops ++ [.advance span]) last := by
  have hconcat : e.performAll (ops ++ [.advance span])
      = ((e.performAll ops).advance span).editor := performAll_concat e ops _
  refine ⟨?_, ?_, ops, span, [], rfl, hburst, h, hrecorded.2, hnow, ?_, ?_⟩ <;> rw [hconcat]
  · exact hrecorded.2
  · exact hnow
  · exact hrecorded.1.past
  · exact hrecorded.1.future

/-- Once the recording was made, what leaves history alone makes no other. -/
lemma Settled.concat (h : e.Settled delay ops last)
    (hpending : ((e.performAll ops).perform op).recordingTimer.pending = false)
    (hnow : (e.performAll ops).clock.now ≤ ((e.performAll ops).perform op).clock.now)
    (hpast : ((e.performAll ops).perform op).past = (e.performAll ops).past)
    (hfuture : ((e.performAll ops).perform op).future = (e.performAll ops).future) :
    e.Settled delay (ops ++ [op]) last := by
  obtain ⟨before, span, after, hops, hburst, hawaits, hnone, hdue, hpast', hfuture'⟩ := h.recorded
  rw [← performAll_concat] at hpending hnow hpast hfuture
  exact ⟨hpending, h.le_now.trans hnow, before, span, after ++ [op], by simp [hops], hburst,
    hawaits, hnone, hdue, hpast.trans hpast', hfuture.trans hfuture'⟩

lemma Settled.unstirred (h : e.Settled delay ops last) (hop : op.IsEdit)
    (hnot : ¬(e.performAll ops).Stirs op) : e.Settled delay (ops ++ [op]) last := by
  have hsame : (e.performAll ops).Undisturbed ((e.performAll ops).perform op) :=
    undisturbed_perform hop
  exact h.concat (not_pending_unstirred h.pending hop hnot) hsame.now.ge hsame.past hsame.future

lemma Settled.passed (h : e.Settled delay ops last) (hpunctual : (e.performAll ops).Punctual)
    (span : Nat) : e.Settled delay (ops ++ [.advance span]) last := by
  have hnot : ¬(e.performAll ops).WillRecord :=
    fun hwill => Bool.false_ne_true (h.pending.symm.trans hwill.1)
  have hrests : (e.performAll ops).Rests ((e.performAll ops).perform (.advance span)) :=
    rests_undergoAll hnot [.time span]
  exact h.concat (Bool.eq_false_iff.2 fun hpending => Bool.false_ne_true
    (h.pending.symm.trans (hrests.pending hpending))) (hpunctual.now_le_advance span) hrests.past
    hrests.future

end Burst

end Workflow.Editor
