import Workflow.Proofs.Editor.Upkeep

/-!
# What the clock holds

In every session the calls on the clock are those that the timers await: one for each timer whose
call is still to come, and no stale ones.
-/

namespace Workflow.Editor

/--
The calls on the clock are those that the timers await, one for each. A timer whose delay has no end
has no call on the clock.
-/
structure Scheduled (e : Editor) : Prop where
  expected : ∀ call ∈ e.clock.calls, (e.timer call.owner).expects call.generation = true
  unique : (e.clock.calls.map Call.owner).Nodup
  ended : ∀ call ∈ e.clock.calls, e.delay call.owner ≠ .endless
  awaited : ∀ name, (e.timer name).pending = true → e.delay name ≠ .endless →
    ∃ call ∈ e.clock.calls, call.owner = name

section Scheduled

variable {e : Editor}

lemma generation_of_expects {t : Timer} {generation : Nat} (h : t.expects generation = true) :
    t.generation = generation := by
  simp only [Timer.expects, Bool.and_eq_true, decide_eq_true_eq] at h
  exact h.2

lemma pending_of_expects {t : Timer} {generation : Nat} (h : t.expects generation = true) :
    t.pending = true := by
  simp only [Timer.expects, Bool.and_eq_true] at h
  exact h.1

/-- A timer has one call on the clock at most. -/
lemma Scheduled.eq_of_owner_eq (h : e.Scheduled) {call other : Call TimerName}
    (hcall : call ∈ e.clock.calls) (hother : other ∈ e.clock.calls)
    (howner : call.owner = other.owner) : call = other :=
  List.inj_on_of_nodup_map h.unique hcall hother howner

/-- Withdrawing the call that a timer awaits withdraws all calls of that timer. -/
lemma Scheduled.withdraw_calls (h : e.Scheduled) (name : TimerName) :
    (e.clock.withdraw name (e.timer name).generation).calls
      = e.clock.calls.filter fun call => call.owner ≠ name := by
  apply List.filter_congr
  intro call hcall
  by_cases howner : call.owner = name
  · have := generation_of_expects (h.expected call hcall)
    simp [howner, ← this]
  · simp [howner]

/-- A timer whose calls were all withdrawn may await nothing, and then all is as scheduled. -/
lemma Scheduled.of_filter {e' : Editor} (h : e.Scheduled) (name : TimerName)
    (hcalls : e'.clock.calls = e.clock.calls.filter fun call => call.owner ≠ name)
    (hself : (e'.timer name).pending = false)
    (hother : ∀ other, other ≠ name → e'.timer other = e.timer other)
    (hdelay : e'.delay = e.delay) : e'.Scheduled where
  expected call hcall := by
    rw [hcalls, List.mem_filter] at hcall
    rw [hother call.owner (by simpa using hcall.2)]
    exact h.expected call hcall.1
  unique := by
    rw [hcalls]
    exact (List.filter_sublist.map _).nodup h.unique
  ended call hcall := by
    rw [hcalls] at hcall
    rw [hdelay]
    exact h.ended call (List.mem_of_mem_filter hcall)
  awaited other hpending hends := by
    have hne : other ≠ name := by
      rintro rfl
      rw [hself] at hpending
      cases hpending
    rw [hother other hne] at hpending
    obtain ⟨call, hcall, rfl⟩ := h.awaited other hpending (hdelay ▸ hends)
    exact ⟨call, by rw [hcalls]; simp [hcall, hne], rfl⟩

lemma delay_setTimer (e : Editor) (name : TimerName) (t : Timer) :
    (e.setTimer name t).delay = e.delay := by
  cases name <;> rfl

lemma Scheduled.cancelTimer (h : e.Scheduled) (name : TimerName) :
    (e.cancelTimer name).Scheduled := by
  refine h.of_filter name (h.withdraw_calls name) ?_ (fun other hne => ?_) (delay_setTimer e _ _)
  · cases name <;> rfl
  · exact timer_setTimer_of_ne e _ hne

@[simp] lemma timer_startTimer_self (e : Editor) (name : TimerName) :
    (e.startTimer name).timer name = (e.timer name).start :=
  timer_setTimer_self _ name _

lemma timer_startTimer_of_ne (e : Editor) {name other : TimerName} (h : other ≠ name) :
    (e.startTimer name).timer other = e.timer other :=
  (timer_setTimer_of_ne _ _ h).trans (timer_setTimer_of_ne e _ h)

lemma delay_startTimer (e : Editor) (name : TimerName) : (e.startTimer name).delay = e.delay :=
  (delay_setTimer _ _ _).trans (delay_setTimer e _ _)

/-- A timer that is started has one call on the clock, unless its delay has no end. -/
lemma Scheduled.calls_startTimer (h : e.Scheduled) (name : TimerName) :
    (e.startTimer name).clock.calls = (e.clock.calls.filter fun call => call.owner ≠ name) ++
      match e.delay name with
      | .finite span => [⟨e.clock.now + span, name, (e.timer name).start.generation⟩]
      | .endless => [] := by
  have hwithdrawn : (e.cancelTimer name).clock.calls
      = e.clock.calls.filter fun call => call.owner ≠ name := h.withdraw_calls name
  rw [← hwithdrawn, startTimer]
  cases e.delay name with
  | finite span => rfl
  | endless => exact (List.append_nil _).symm

lemma Scheduled.mem_calls_startTimer (h : e.Scheduled) {name : TimerName} {call : Call TimerName}
    (hcall : call ∈ (e.startTimer name).clock.calls) :
    call ∈ e.clock.calls ∧ call.owner ≠ name ∨ ∃ span, e.delay name = .finite span ∧
      call = ⟨e.clock.now + span, name, (e.timer name).start.generation⟩ := by
  rw [h.calls_startTimer] at hcall
  rcases List.mem_append.1 hcall with hold | hnew
  · exact .inl ⟨List.mem_of_mem_filter hold, by simpa using (List.mem_filter.1 hold).2⟩
  · cases hdelay : e.delay name with
    | finite span =>
      rw [hdelay] at hnew
      exact .inr ⟨span, rfl, List.mem_singleton.1 hnew⟩
    | endless =>
      rw [hdelay] at hnew
      cases hnew

lemma Scheduled.startTimer (h : e.Scheduled) (name : TimerName) :
    (e.startTimer name).Scheduled := by
  have hcalls := h.calls_startTimer name
  refine ⟨fun call hcall => ?_, ?_, fun call hcall => ?_, fun other hpending hends => ?_⟩
  · rcases h.mem_calls_startTimer hcall with ⟨hold, hne⟩ | ⟨span, -, rfl⟩
    · rw [timer_startTimer_of_ne e hne]
      exact h.expected call hold
    · simp [Timer.expects, Timer.start]
  · rw [hcalls, List.map_append, List.nodup_append]
    refine ⟨(List.filter_sublist.map _).nodup h.unique, ?_, ?_⟩
    · cases e.delay name <;> simp
    · intro a ha b hb
      obtain ⟨call, hcall, rfl⟩ := List.mem_map.1 ha
      have hname : b = name := by
        cases hdelay : e.delay name <;> simp [hdelay] at hb
        exact hb
      rw [hname]
      simpa using (List.mem_filter.1 hcall).2
  · rw [delay_startTimer]
    rcases h.mem_calls_startTimer hcall with ⟨hold, -⟩ | ⟨span, hdelay, rfl⟩
    · exact h.ended call hold
    · simp [hdelay]
  · rw [delay_startTimer] at hends
    rw [hcalls]
    by_cases hne : other = name
    · subst hne
      cases hdelay : e.delay other with
      | finite span => exact ⟨_, List.mem_append_right _ (List.mem_singleton_self _), rfl⟩
      | endless => exact absurd hdelay hends
    · rw [timer_startTimer_of_ne e hne] at hpending
      obtain ⟨call, hcall, rfl⟩ := h.awaited other hpending hends
      exact ⟨call, List.mem_append_left _ (by simp [hcall, hne]), rfl⟩

/-! ### Changes -/

/-- What changes no timer and no call leaves all as scheduled. -/
lemma Scheduled.changed {e' : Editor} (h : e.Scheduled) (htimer : e'.timer = e.timer)
    (hcalls : e'.clock.calls = e.clock.calls) (hdelay : e'.delay = e.delay) : e'.Scheduled where
  expected := by rw [hcalls, htimer]; exact h.expected
  unique := by rw [hcalls]; exact h.unique
  ended := by rw [hcalls, hdelay]; exact h.ended
  awaited := by rw [hcalls, htimer, hdelay]; exact h.awaited

lemma keptByReactions_scheduled : KeptByReactions Scheduled where
  cancelTimer _ name _ h := h.cancelTimer name
  startTimer _ name _ h := h.startTimer name
  signals _ _ h := h.changed rfl rfl rfl
  unsaved _ _ h := h.changed rfl rfl rfl
  announced _ _ h := h.changed rfl rfl rfl

lemma Scheduled.edited {e' : Editor} {op : Operation} (h : e.Scheduled)
    (hedited : e.Edited op e') : e'.Scheduled := by
  cases hedited with
  | kept serial => exact h.changed rfl rfl rfl
  | @announced serial state misfits hstep change =>
    have hchanged : { e with serial := serial, state := state, misfits := misfits }.Scheduled :=
      h.changed rfl rfl rfl
    exact keptByReactions_scheduled.announce hchanged change

/-! ### Calls -/

/-- Taking an awaited call leaves its timer awaiting nothing. -/
lemma Scheduled.taken (h : e.Scheduled) {call : Call TimerName}
    (hcall : (e.timer call.owner).expects call.generation = true) : (e.taken call).Scheduled := by
  refine h.of_filter call.owner ?_ ?_ (fun other hne => ?_) (delay_setTimer _ _ _)
  · rw [calls_taken, ← generation_of_expects hcall, h.withdraw_calls]
  · rw [Editor.taken, timer_setTimer_self, Timer.deliver, if_pos hcall]
  · exact timer_setTimer_of_ne _ _ hne

/-- A stale call takes nothing off the clock. -/
lemma Scheduled.calls_deliver_of_stale (h : e.Scheduled) {call : Call TimerName}
    (hcall : (e.timer call.owner).expects call.generation = false) :
    (e.clock.deliver call).calls = e.clock.calls := by
  apply List.filter_eq_self.2
  intro other hother
  by_contra hne
  simp only [ne_eq, Bool.or_eq_true, decide_eq_true_eq, not_or, not_not] at hne
  have := h.expected other hother
  rw [hne.1, hne.2, hcall] at this
  cases this

/-! ### Sessions -/

lemma keptByWork_scheduled : KeptByWork Scheduled where
  toKeptByTimers := keptByReactions_scheduled.toKeptByTimers
  inAction _ _ h := h.changed rfl rfl rfl
  unwatched _ h := h.changed rfl rfl rfl
  unattended _ h := h.changed rfl rfl rfl
  unsaved _ h := h.changed rfl rfl rfl
  files _ _ h := h.changed rfl rfl rfl
  trace _ _ h := h.changed rfl rfl rfl
  now _ _ h := h.changed rfl rfl rfl
  clearHistory _ h := h.changed rfl rfl rfl
  push _ _ h _ := h.changed rfl rfl rfl
  applying _ _ h := h.changed rfl rfl rfl
  opened _ h := h.startTimer .applying
  travelled e m left s rest h _ _ := by
    have hshifted : (e.shift m left rest).Scheduled := by
      cases m <;> exact h.changed rfl rfl rfl
    exact hshifted.edited (edited_replaceState s)
  flagged _ value h := h.edited (edited_setExecuting value)
  taken _ _ h hcall := h.taken hcall
  stale _ _ h hcall := h.changed rfl (h.calls_deliver_of_stale hcall) rfl

lemma Scheduled.travel (h : e.Scheduled) (m : Travel) : (e.travel m).editor.Scheduled :=
  keptByWork_scheduled.travel h m

lemma Scheduled.deliver (h : e.Scheduled) (call : Call TimerName) :
    (e.deliver call).editor.Scheduled :=
  keptByWork_scheduled.deliver h call

/-- Whatever is done with an editor leaves all as scheduled. -/
lemma Scheduled.perform (h : e.Scheduled) (op : Operation) : (e.perform op).Scheduled := by
  by_cases hop : op.IsEdit
  · exact h.edited (edited_perform hop)
  · exact keptByWork_scheduled.perform hop
      (fun _ w _ hx => hx.edited (edited_replaceState { graph := w.graph })) h

/-- In every session the clock holds what the timers await. -/
theorem Reachable.scheduled (h : e.Reachable) : e.Scheduled := by
  induction h with
  | opened config autosaving epoch files room =>
    refine ⟨nofun, List.nodup_nil, nofun, fun name hpending => ?_⟩
    cases name <;> cases hpending
  | after _ op ih => exact ih.perform op

end Scheduled

end Workflow.Editor
