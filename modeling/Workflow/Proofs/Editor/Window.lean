import Workflow.Proofs.Editor.Punctual

/-!
# The window of undo and redo

An undo or a redo that is not refused opens a window, and one that comes while the window is open
extends it. The applying flag is up in the window and at no other time: what the recorder, the
autosaver and the edits do leaves it alone, and a call that comes through closes it only when the
window is over.
-/

namespace Workflow.Editor

/-! ### When the window was opened -/

/-- When the window was opened last, after an operation before which it was known. -/
def openedBy (e : Editor) (op : Operation) (since : Option Int) : Option Int :=
  match op.travel? with
  | none => since
  | some m =>
    match (e.travel m).answer with
    | .ok false => since
    | _ => some e.clock.now

/--
The editors that a session can come to, each with the time on its clock of the last undo or redo
that was not refused.
-/
inductive OpenedLast : Editor → Option Int → Prop where
  | opened (config : Config) (autosaving : Bool) (epoch : Int) (files : Files) (room : CopyRoom) :
      OpenedLast { new config autosaving epoch with files := files, copyRoom := room } none
  | after {e : Editor} {since : Option Int} (h : OpenedLast e since) (op : Operation) :
      OpenedLast (e.perform op) (e.openedBy op since)

lemma OpenedLast.reachable {e : Editor} {since : Option Int} (h : e.OpenedLast since) :
    e.Reachable := by
  induction h with
  | opened config autosaving epoch files room => exact .opened config autosaving epoch files room
  | after _ op ih => exact ih.after op

lemma perform_of_travel {e : Editor} {op : Operation} {m : Travel} (h : op.travel? = some m) :
    e.perform op = (e.travel m).editor := by
  cases op <;> cases h <;> rfl

lemma openedBy_of_not_travel {e : Editor} {op : Operation} (h : op.travel? = none)
    (since : Option Int) : e.openedBy op since = since := by
  rw [openedBy, h]

lemma openedBy_of_refused {e : Editor} {op : Operation} {m : Travel} (hop : op.travel? = some m)
    (h : e.ahead m = []) (since : Option Int) : e.openedBy op since = since := by
  simp only [openedBy, hop, travel_nil h, done]

lemma openedBy_of_ahead {e : Editor} {op : Operation} {m : Travel} (hop : op.travel? = some m)
    (h : e.ahead m ≠ []) (since : Option Int) : e.openedBy op since = some e.clock.now := by
  simp only [openedBy, hop]
  split
  · next hrefused => exact absurd (travel_answer_false_iff.1 hrefused) h
  · rfl

/-! ### What the window is about -/

/-- An editor with no more than what the window is about. -/
def window (e : Editor) : Editor where
  config := e.config
  applying := e.applying
  applyingTimer := e.applyingTimer
  clock := { e.clock with calls := e.clock.calls.filter fun call => call.owner = .applying }

section Window

variable {e x : Editor}

lemma window_calls_withdraw {name : TimerName} (hname : name ≠ .applying) (generation : Nat)
    (calls : List (Call TimerName)) :
    (calls.filter fun call => call.owner ≠ name || call.generation ≠ generation).filter
        (fun call => call.owner = .applying)
      = calls.filter fun call => call.owner = .applying := by
  rw [List.filter_filter]
  refine List.filter_congr fun call _ => ?_
  by_cases howner : call.owner = .applying
  · simp [howner, hname.symm]
  · simp [howner]

lemma window_setTimer {name : TimerName} (hname : name ≠ .applying) (t : Timer)
    (clock : Clock TimerName) :
    { e.setTimer name t with clock := clock }.window = { e with clock := clock }.window := by
  cases name with
  | applying => exact absurd rfl hname
  | recording | saving => rfl

lemma window_cancelTimer {name : TimerName} (hname : name ≠ .applying) :
    (e.cancelTimer name).window = e.window := by
  rw [cancelTimer, window_setTimer hname]
  simp only [window, Clock.withdraw, window_calls_withdraw hname]

lemma window_startTimer {name : TimerName} (hname : name ≠ .applying) :
    (e.startTimer name).window = e.window := by
  refine Eq.trans ?_ (window_cancelTimer (e := e) hname)
  rw [startTimer, window_setTimer hname]
  cases e.delay name with
  | finite span => simp [window, Clock.schedule, List.filter_append, hname]
  | endless => rfl

lemma keptByReactions_window (e : Editor) : KeptByReactions fun x => x.window = e.window where
  cancelTimer _ _ hname h := (window_cancelTimer hname).trans h
  startTimer _ _ hname h := (window_startTimer hname).trans h
  signals _ _ h := h
  unsaved _ _ h := h
  announced _ _ h := h

lemma window_announce (e : Editor) (change : Change) :
    (e.announce change).editor.window = e.window :=
  (keptByReactions_window e).announce rfl change

lemma keptByRecording_window (e : Editor) : KeptByRecording fun x => x.window = e.window where
  toKeptByTimers := (keptByReactions_window e).toKeptByTimers
  inAction _ _ h := h
  unwatched _ h := h
  unattended _ h := h
  unsaved _ h := h
  files _ _ h := h
  trace _ _ h := h
  flagged _ _ h := (window_announce _ _).trans h
  clearHistory _ h := h
  push _ _ h _ := h

lemma window_edited {op : Operation} (h : e.Edited op x) : x.window = e.window := by
  cases h with
  | kept serial => rfl
  | announced serial hstep change => exact window_announce _ change

/-- A step along the history opens the window, and nothing it does afterwards touches it. -/
lemma window_travel {m : Travel} (h : e.ahead m ≠ []) :
    (e.travel m).editor.window = e.beginApplying.window := by
  obtain ⟨s, rest, hahead⟩ := List.exists_cons_of_ne_nil h
  rw [travel_cons hahead]
  refine withSnapshot_editor (P := fun x => x.window = e.beginApplying.window) rfl fun left => ?_
  rw [Outcome.answering_editor, replaceState, window_announce]
  cases m <;> rfl

/-- What is neither undo nor redo, and takes no time, leaves the window alone. -/
lemma window_perform {op : Operation} (htravel : op.travel? = none)
    (htime : ∀ span, op ≠ .advance span) : (e.perform op).window = e.window := by
  by_cases hedit : op.IsEdit
  · exact window_edited (edited_perform hedit)
  · refine (keptByRecording_window e).perform hedit (fun m hm => ?_) (fun _ w _ _ => ?_)
      (fun span hspan => absurd hspan (htime span)) rfl
    · cases htravel.symm.trans hm
    · exact window_announce _ .state

/-! ### The flag and its timer -/

/--
The flag is up as long as the timer of the window is pending. The call that the timer awaits, which
is on the clock or among some calls about to be delivered, is due when the window is over. A window
that was closed is over, and one without end is not closed.
-/
structure Marks (e : Editor) (since : Option Int) (calls : List (Call TimerName)) : Prop where
  applying_eq : e.applying = e.applyingTimer.pending
  due : e.applyingTimer.pending = true → ∃ t ∈ since, ∀ call, call ∈ calls ∨ call ∈ e.clock.calls →
    call.owner = .applying → ∃ delay, e.delay .applying = .finite delay ∧ call.due = t + delay
  closed : e.applyingTimer.pending = false → ∀ t ∈ since,
    ∃ delay, e.delay .applying = .finite delay ∧ t + delay ≤ e.clock.now

variable {since : Option Int} {calls : List (Call TimerName)} {call : Call TimerName}

/-- Where flag and timer stay as they are, and no call is new, time may pass. -/
lemma Marks.later {calls' : List (Call TimerName)} (h : e.Marks since calls)
    (hconfig : x.config = e.config)
    (happlying : x.applying = e.applying) (htimer : x.applyingTimer = e.applyingTimer)
    (hcalls : ∀ call, call ∈ calls' ∨ call ∈ x.clock.calls → call.owner = .applying →
      call ∈ calls ∨ call ∈ e.clock.calls)
    (hnow : e.clock.now ≤ x.clock.now) : x.Marks since calls' := by
  have hdelay : x.delay .applying = e.delay .applying := by simp only [delay, hconfig]
  refine ⟨?_, fun hpending => ?_, fun hpending t ht => ?_⟩
  · rw [happlying, htimer]
    exact h.applying_eq
  · rw [htimer] at hpending
    rw [hdelay]
    obtain ⟨t, ht, hdue⟩ := h.due hpending
    exact ⟨t, ht, fun call hcall howner => hdue call (hcalls call hcall howner) howner⟩
  · rw [htimer] at hpending
    rw [hdelay]
    obtain ⟨delay, hd, hover⟩ := h.closed hpending t ht
    exact ⟨delay, hd, hover.trans hnow⟩

lemma Marks.of_window (h : e.Marks since calls) (heq : x.window = e.window) :
    x.Marks since calls := by
  have hnow : x.clock.now = e.clock.now := (congrArg (fun w => w.clock.now) heq :)
  have hcalls : (x.clock.calls.filter fun call => call.owner = .applying)
      = e.clock.calls.filter fun call => call.owner = .applying :=
    (congrArg (fun w => w.clock.calls) heq :)
  refine h.later (congrArg Editor.config heq :) (congrArg Editor.applying heq :)
    (congrArg Editor.applyingTimer heq :) (fun call hcall howner => hcall.imp_right fun hmem => ?_)
    hnow.ge
  have hfiltered : call ∈ x.clock.calls.filter fun call => call.owner = .applying :=
    List.mem_filter.2 ⟨hmem, decide_eq_true howner⟩
  rw [hcalls] at hfiltered
  exact List.mem_of_mem_filter hfiltered

/-- An undo or a redo that is not refused opens the window anew. -/
lemma marks_travel (hscheduled : e.Scheduled) {m : Travel} (hahead : e.ahead m ≠ []) :
    (e.travel m).editor.Marks (some e.clock.now) [] := by
  refine Marks.of_window (e := e.beginApplying) ?_ (window_travel hahead)
  refine ⟨rfl, fun _ => ⟨_, rfl, fun call hcall howner => ?_⟩, by rintro ⟨⟩⟩
  have hup : { e with applying := true }.Scheduled := hscheduled.changed rfl rfl rfl
  have hmem : call ∈ e.beginApplying.clock.calls := hcall.resolve_left List.not_mem_nil
  rcases hup.mem_calls_startTimer hmem with ⟨-, hother⟩ | ⟨span, hdelay, rfl⟩
  · exact absurd howner hother
  · exact ⟨span, hdelay, rfl⟩

/-! ### Time -/

lemma config_taken (e : Editor) (call : Call TimerName) : (e.taken call).config = e.config := by
  rw [taken]
  cases call.owner <;> rfl

lemma applying_taken (e : Editor) (call : Call TimerName) :
    (e.taken call).applying = e.applying := by
  rw [taken]
  cases call.owner <;> rfl

lemma now_taken (e : Editor) (call : Call TimerName) : (e.taken call).clock.now = call.due := by
  rw [taken, clock_setTimer]
  rfl

/-- A call that is no news to the timer of the window leaves the window alone. -/
lemma Marks.taken (h : e.Marks since (call :: calls)) (hnow : e.clock.now ≤ call.due)
    (htimer : (e.taken call).applyingTimer = e.applyingTimer) :
    (e.taken call).Marks since calls := by
  refine h.later (config_taken e call) (applying_taken e call) htimer (fun other hother _ => ?_)
    (hnow.trans (now_taken e call).ge)
  rcases hother with hlater | hmem
  · exact .inl (List.mem_cons_of_mem _ hlater)
  · rw [calls_taken] at hmem
    exact .inr (List.mem_of_mem_filter hmem)

/-- The call that the timer of the window awaits lowers the flag as the window is over. -/
lemma marks_closed (h : e.Marks since (call :: calls)) (howner : call.owner = .applying)
    (hexpects : e.applyingTimer.expects call.generation = true) :
    { e.taken call with applying := false }.Marks since calls := by
  obtain ⟨t, ht, hdue⟩ := h.due (pending_of_expects hexpects)
  obtain ⟨delay, hdelay, hover⟩ := hdue call (.inl List.mem_cons_self) howner
  have hpending : (e.taken call).applyingTimer.pending = false := by
    obtain ⟨due, owner, generation⟩ := call
    obtain rfl : owner = .applying := howner
    exact congrArg Timer.pending (if_pos hexpects)
  have hdelay' : (e.taken call).delay .applying = .finite delay := by
    simpa only [Editor.delay, config_taken] using hdelay
  refine ⟨hpending.symm, fun hpending' => ?_, fun _ t' ht' => ⟨delay, hdelay', ?_⟩⟩
  · cases hpending.symm.trans hpending'
  · obtain rfl : t = t' := Option.some.inj (ht.symm.trans ht')
    exact (hover.symm.trans (now_taken e call).symm).le

lemma Marks.deliver (h : e.Marks since (call :: calls)) (hnow : e.clock.now ≤ call.due) :
    (e.deliver call).editor.Marks since calls := by
  cases hexpects : (e.timer call.owner).expects call.generation with
  | false =>
    rw [deliver_of_stale hexpects, ← taken_of_stale hexpects]
    refine h.taken hnow ?_
    rw [taken_of_stale hexpects]
  | true =>
    rw [deliver_of_expects hexpects]
    by_cases howner : call.owner = .applying
    · rw [howner] at hexpects ⊢
      exact marks_closed h howner hexpects
    · have hkept : ((e.taken call).fire call.owner).editor.window = (e.taken call).window :=
        (keptByRecording_window _).fire rfl howner
      refine Marks.of_window (h.taken hnow ?_) hkept
      exact timer_setTimer_of_ne _ _ (Ne.symm howner)

/-- Calls that come in order and in time lower the flag when the window is over. -/
lemma Marks.deliverAll (h : e.Marks since calls) {target : Int} (hnow : e.clock.now ≤ target)
    (hsorted : calls.Pairwise fun a b => a.due ≤ b.due)
    (hdue : ∀ call ∈ calls, e.clock.now ≤ call.due ∧ call.due ≤ target) :
    (e.deliverAll calls).editor.Marks since [] ∧
      (e.deliverAll calls).editor.clock.now ≤ target := by
  induction calls generalizing e with
  | nil => exact ⟨h, hnow⟩
  | cons call calls ih =>
    obtain ⟨hfirst, hlater⟩ := List.pairwise_cons.1 hsorted
    obtain ⟨hcall, htarget⟩ := hdue call List.mem_cons_self
    have hdelivered := h.deliver hcall
    have hnow' : (e.deliver call).editor.clock.now = call.due := now_deliver e call
    rw [Editor.deliverAll]
    cases hanswer : (e.deliver call).answer with
    | error f =>
      rw [Outcome.andThen_of_error hanswer]
      have hcalls : ∀ {other : Call TimerName}, other ∈ [] → other ∈ calls :=
        fun hmem => absurd hmem List.not_mem_nil
      exact ⟨hdelivered.later rfl rfl rfl (fun other hother _ => hother.imp_left hcalls) le_rfl,
        hnow'.trans_le htarget⟩
    | ok =>
      rw [Outcome.andThen_of_ok hanswer]
      refine ih hdelivered (hnow'.trans_le htarget) hlater fun other hother => ?_
      exact ⟨hnow'.trans_le (hfirst other hother), (hdue other (List.mem_cons_of_mem _ hother)).2⟩

lemma Marks.advance (h : e.Marks since []) (hpunctual : e.Punctual) (span : Nat) :
    (e.advance span).editor.Marks since [] := by
  have hdelivers := e.delivers_dueBy (e.clock.now + span)
  have hbegun : e.Marks since (e.clock.dueBy (e.clock.now + span)) :=
    h.later rfl rfl rfl (fun call hcall _ => .inr (hcall.elim (fun hmem => (mem_dueBy_iff.1 hmem).1)
      id)) le_rfl
  obtain ⟨hdelivered, hnow⟩ := hbegun.deliverAll (by omega : e.clock.now ≤ e.clock.now + span)
    hdelivers.sorted fun call hcall =>
      ⟨hpunctual call (mem_dueBy_iff.1 hcall).1, hdelivers.due_le call hcall⟩
  refine Outcome.andThen_editor (P := fun x => x.Marks since []) hdelivered fun _ => ?_
  exact hdelivered.later rfl rfl rfl (fun _ hcall _ => hcall) hnow

/-- What an advance leaves on the clock is due later, if no call failed. -/
lemma lt_due_of_advance (hpunctual : e.Punctual) {span : Int}
    (h : (e.advance span).answer = .ok ()) :
    ∀ call ∈ (e.advance span).editor.clock.calls, (e.advance span).editor.clock.now < call.due := by
  obtain ⟨_, hdelivered, -⟩ := Outcome.andThen_answer_ok h
  intro call hcall
  rw [Editor.advance, Outcome.andThen_of_ok hdelivered] at hcall ⊢
  exact ((e.delivers_dueBy (e.clock.now + span)).deliverAll hpunctual).2 hdelivered call hcall

/-! ### Sessions -/

lemma OpenedLast.marks (h : e.OpenedLast since) (hvalid : e.config.IsValid) :
    e.Marks since [] := by
  revert hvalid
  induction h with
  | opened config autosaving epoch files room =>
    exact fun _ => ⟨rfl, nofun, fun _ _ h => nomatch h⟩
  | @after x since h op ih =>
    intro hvalid
    have hreachable := h.reachable
    rw [config_perform] at hvalid
    cases hop : op.travel? with
    | some m =>
      by_cases hahead : x.ahead m = []
      · rw [openedBy_of_refused hop hahead, perform_of_travel hop, travel_nil hahead]
        exact ih hvalid
      · rw [openedBy_of_ahead hop hahead, perform_of_travel hop]
        exact marks_travel hreachable.scheduled hahead
    | none =>
      rw [openedBy_of_not_travel hop]
      by_cases htime : ∃ span, op = .advance span
      · obtain ⟨span, rfl⟩ := htime
        exact (ih hvalid).advance (hreachable.punctual hvalid) span
      · exact (ih hvalid).of_window (window_perform hop fun span hspan => htime ⟨span, hspan⟩)

/-- While the window is open its end lies ahead, and once it was closed its end is past. -/
lemma Marks.applying_iff_lt (h : e.Marks since calls) (hscheduled : e.Scheduled)
    (hahead : ∀ call ∈ e.clock.calls, e.clock.now < call.due) :
    e.applying = true ↔
      ∃ t ∈ since, ∀ delay, e.delay .applying = .finite delay → e.clock.now - t < delay := by
  rw [h.applying_eq]
  cases hpending : e.applyingTimer.pending with
  | true =>
    obtain ⟨t, ht, hdue⟩ := h.due hpending
    refine iff_of_true rfl ⟨t, ht, fun delay hdelay => ?_⟩
    obtain ⟨call, hcall, howner⟩ := hscheduled.awaited .applying hpending (by simp [hdelay])
    obtain ⟨delay', hdelay', hover⟩ := hdue call (.inr hcall) howner
    obtain rfl : delay' = delay := Delay.finite.inj (hdelay'.symm.trans hdelay)
    have hlate := hahead call hcall
    omega
  | false =>
    refine iff_of_false Bool.false_ne_true ?_
    rintro ⟨t, ht, hlt⟩
    obtain ⟨delay, hdelay, hover⟩ := h.closed hpending t ht
    have := hlt delay hdelay
    omega

/--
The applying flag marks the window after the last undo or redo that was not refused, and nothing
else. In every session it is up if and only if the timer of the window is pending. After time has
passed, if no call failed, it is up if and only if there was such an undo or redo and less than the
delay has passed since the last one, as is always so of a delay without end. An undo or redo that
fails, at the snapshot or at the recorder, is not refused and opens the window too.
-/
theorem applying_iff_in_window (h : e.OpenedLast since) (hvalid : e.config.IsValid) :
    (e.applying = true ↔ e.applyingTimer.pending = true) ∧
    ∀ span : Nat, (e.advance span).answer = .ok () →
      ((e.advance span).editor.applying = true ↔ ∃ t ∈ since, ∀ delay,
        e.delay .applying = .finite delay → (e.advance span).editor.clock.now - t < delay) := by
  have hmarks := h.marks hvalid
  have hpunctual := h.reachable.punctual hvalid
  refine ⟨by rw [hmarks.applying_eq], fun span hanswer => ?_⟩
  have hdelay : (e.advance span).editor.delay .applying = e.delay .applying := by
    simp only [Editor.delay, config_advance]
  rw [← hdelay]
  exact (hmarks.advance hpunctual span).applying_iff_lt
    (h.reachable.after (.advance span)).scheduled (lt_due_of_advance hpunctual hanswer)

/-- An undo after one forced entry opens the window; half of its time later the flag is still up. -/
theorem applying_iff_in_window_half :
    let x := (new {} false 0).perform (.record true) |>.perform .undo
    x.OpenedLast (some 0) ∧ x.applyingTimer.pending = true ∧
      (x.advance 50).editor.applying = true := by
  intro x
  have hopened : x.OpenedLast (some 0) :=
    OpenedLast.after (OpenedLast.after (.opened {} false 0 {} .standard) (.record true)) .undo
  have hvalid : Config.IsValid {} := ⟨by decide, by decide, by decide, by decide⟩
  have hconfig : x.config = {} := (config_perform _ _).trans (config_perform _ _)
  have hdelay : x.delay .applying = .finite 100 := by
    rw [delay, hconfig]
    rfl
  have hup : x.applying = true := by decide +kernel
  have hcalls : x.clock.calls = [⟨100, .applying, 1⟩] := by decide +kernel
  have hnow : x.clock.now = 0 := by decide +kernel
  obtain ⟨hpending, hlater⟩ := applying_iff_in_window hopened hvalid
  have hadvance : x.advance 50
      = { x with clock := { x.clock with now := x.clock.now + 50 } }.done () := by
    have hnone : x.clock.dueBy (x.clock.now + 50) = [] := by simp [Clock.dueBy, hcalls, hnow]
    rw [advance, hnone]
    rfl
  refine ⟨hopened, hpending.1 hup, (hlater 50 ?_).2 ⟨0, rfl, fun delay hdelay' => ?_⟩⟩
  · rw [Nat.cast_ofNat, hadvance]
    rfl
  · obtain rfl : 100 = delay := Delay.finite.inj (hdelay.symm.trans hdelay')
    rw [Nat.cast_ofNat, hadvance]
    change x.clock.now + 50 - 0 < 100
    omega

end Window

end Workflow.Editor
