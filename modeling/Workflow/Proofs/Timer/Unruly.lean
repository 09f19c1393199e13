import Mathlib.Data.List.Count
import Mathlib.Tactic
import Workflow.Timer.Run

/-!
# Timers with an unruly scheduler

A scheduler may deliver whatever was ever passed to it: in any order, at any time, as often as it
likes, and also what was cancelled. A timer lets through the call of its most recent start, once,
and that only if it was not cancelled since.
-/

namespace Workflow.TimerRun

/-- What is done with a timer, and what its scheduler does. -/
inductive Event where
  | start
  | cancel
  /-- The call of a start is delivered at some time; so many other starts came before that one. -/
  | deliver (call : Nat) (time : Int)
deriving DecidableEq

/-- A timer, and the generations of all calls that it has passed to its scheduler, in order. -/
structure Unruly where
  run : TimerRun
  passed : List Nat := []

namespace Unruly

/-- What comes of an event. The scheduler can only deliver what was passed to it. -/
def step (u : Unruly) : Event → Unruly
  | .start => ⟨u.run.start, u.passed ++ [u.run.start.timer.generation]⟩
  | .cancel => { u with run := u.run.cancel.1 }
  | .deliver n time =>
    match u.passed[n]? with
    | some generation => { u with run := u.run.deliver ⟨time, (), generation⟩ }
    | none => u

/-- A new timer after some events. -/
def after (delay : Delay) (keepsCancelled : Bool) (events : List Event) : Unruly :=
  events.foldl step ⟨{ delay := delay, keepsCancelled := keepsCancelled }, []⟩

end Unruly

/-! ### The call to come -/

/--
The call of a start is to come: since that start, which was the last one, nothing was cancelled and
the call was not delivered.
-/
def IsToCome (events : List Event) (n : Nat) : Prop :=
  ∃ before later, events = before ++ .start :: later ∧ before.count .start = n ∧
    .start ∉ later ∧ .cancel ∉ later ∧ ∀ time, .deliver n time ∉ later

section IsToCome

variable {events : List Event} {n m : Nat}

/-- The call to come is that of the last start. -/
lemma IsToCome.succ_eq (h : IsToCome events n) : n + 1 = events.count .start := by
  obtain ⟨before, later, rfl, rfl, hstart, -, -⟩ := h
  rw [List.count_append, List.count_cons_self, List.count_eq_zero_of_not_mem hstart]

lemma not_isToCome_nil : ¬IsToCome [] n := by
  rintro ⟨before, later, h, -⟩
  simp at h

/-- An event after which the call of an earlier start is still to come. -/
lemma isToCome_concat_of_ne {event : Event} (h : event ≠ .start) :
    IsToCome (events ++ [event]) n ↔
      IsToCome events n ∧ event ≠ .cancel ∧ ∀ time, event ≠ .deliver n time := by
  constructor
  · rintro ⟨before, later, heq, hn, hstart, hcancel, hdeliver⟩
    rcases List.eq_nil_or_concat later with rfl | ⟨others, last, rfl⟩
    · obtain ⟨-, hlast⟩ := List.append_inj' heq rfl
      exact absurd (List.singleton_inj.1 hlast) h
    · rw [List.concat_eq_append] at hstart hcancel hdeliver
      rw [List.concat_eq_append, ← List.cons_append, ← List.append_assoc] at heq
      obtain ⟨hevents, hlast⟩ := List.append_inj' heq rfl
      obtain rfl := List.singleton_inj.1 hlast
      simp only [List.mem_append, List.mem_singleton, not_or] at hstart hcancel hdeliver
      exact ⟨⟨before, others, hevents, hn, hstart.1, hcancel.1, fun time => (hdeliver time).1⟩,
        Ne.symm hcancel.2, fun time => Ne.symm (hdeliver time).2⟩
  · rintro ⟨⟨before, later, rfl, hn, hstart, hcancel, hdeliver⟩, hne, hother⟩
    refine ⟨before, later ++ [event], by simp, hn, ?_, ?_, fun time => ?_⟩
    · simp [hstart, Ne.symm h]
    · simp [hcancel, Ne.symm hne]
    · simp [hdeliver time, Ne.symm (hother time)]

lemma isToCome_concat_start :
    IsToCome (events ++ [.start]) n ↔ n = events.count .start := by
  constructor
  · intro h
    have := h.succ_eq
    rw [List.count_append, List.count_singleton_self] at this
    omega
  · rintro rfl
    exact ⟨events, [], rfl, rfl, List.not_mem_nil, List.not_mem_nil, fun _ => List.not_mem_nil⟩

lemma not_isToCome_concat_cancel : ¬IsToCome (events ++ [.cancel]) n := by
  rw [isToCome_concat_of_ne (by simp)]
  simp

lemma isToCome_concat_deliver {time : Int} :
    IsToCome (events ++ [.deliver m time]) n ↔ IsToCome events n ∧ m ≠ n := by
  rw [isToCome_concat_of_ne (by simp)]
  simp

end IsToCome

/-! ### Runs -/

/-- What a timer knows of the events so far. -/
structure Unruly.Follows (u : Unruly) (events : List Event) : Prop where
  length : u.passed.length = events.count .start
  /-- No call has a generation that is still to come. -/
  past : ∀ generation ∈ u.passed, generation ≤ u.run.timer.generation
  expects_iff : ∀ n generation, u.passed[n]? = some generation →
    (u.run.timer.expects generation = true ↔ IsToCome events n)
  pending_iff : u.run.timer.pending = true ↔ ∃ n, IsToCome events n
  /-- Every start pays for a call that came through or is still to come. -/
  spent : u.run.fired.length + u.run.timer.pending.toNat ≤ events.count .start

namespace Unruly

variable {u : Unruly} {events : List Event}

lemma follows_new (delay : Delay) (keepsCancelled : Bool) :
    (after delay keepsCancelled []).Follows [] where
  length := rfl
  past := nofun
  expects_iff _ _ h := by cases h
  pending_iff := iff_of_false Bool.false_ne_true fun ⟨_, h⟩ => not_isToCome_nil h
  spent := Nat.zero_le _

lemma fired_withdraw (r : TimerRun) : r.withdraw.fired = r.fired := by
  rw [withdraw]
  split_ifs <;> rfl

lemma fired_start (u : Unruly) : (u.step .start).run.fired = u.run.fired :=
  fired_withdraw u.run

lemma fired_cancel (u : Unruly) : (u.step .cancel).run.fired = u.run.fired :=
  fired_withdraw u.run

lemma Follows.start (h : u.Follows events) : (u.step .start).Follows (events ++ [.start]) := by
  have hcount : (events ++ [Event.start]).count .start = events.count .start + 1 := by simp
  have hnew : (u.step .start).run.timer.generation = u.run.timer.generation + 1 := rfl
  have hpassed : (u.step .start).passed = u.passed ++ [u.run.timer.generation + 1] := rfl
  have hexpects : ∀ generation, (u.step .start).run.timer.expects generation = true ↔
      generation = u.run.timer.generation + 1 := fun generation => by
    change (true && decide (u.run.timer.generation + 1 = generation)) = true ↔ _
    rw [Bool.true_and, decide_eq_true_iff, eq_comm]
  refine ⟨?_, fun generation hmem => ?_, fun n generation hn => ?_, ?_, ?_⟩
  · rw [hpassed, List.length_append, List.length_singleton, h.length, hcount]
  · rw [hpassed, List.mem_append, List.mem_singleton] at hmem
    rw [hnew]
    rcases hmem with hold | rfl
    · exact (h.past generation hold).trans (Nat.le_succ _)
    · exact le_rfl
  · rw [hexpects, isToCome_concat_start, ← h.length]
    rw [hpassed] at hn
    rcases Nat.lt_or_ge n u.passed.length with hlt | hge
    · -- the generation of an earlier call has passed
      rw [List.getElem?_append_left hlt] at hn
      have hpast := h.past generation (List.mem_of_getElem? hn)
      exact iff_of_false (by omega) hlt.ne
    · rw [List.getElem?_append_right hge] at hn
      obtain ⟨hlast, hnext⟩ := List.getElem?_eq_some_iff.1 hn
      rw [List.length_singleton] at hlast
      exact iff_of_true (by simpa using hnext.symm) (by omega)
  · exact iff_of_true rfl ⟨_, isToCome_concat_start.2 rfl⟩
  · have hspent := h.spent
    rw [fired_start, hcount]
    change u.run.fired.length + 1 ≤ _
    omega

lemma Follows.cancel (h : u.Follows events) : (u.step .cancel).Follows (events ++ [.cancel]) := by
  have hcount : (events ++ [Event.cancel]).count .start = events.count .start := by simp
  refine ⟨h.length.trans hcount.symm, fun generation hmem => (h.past generation hmem).trans
    (Nat.le_succ _), fun n generation hn => ?_, ?_, ?_⟩
  · exact iff_of_false Bool.false_ne_true not_isToCome_concat_cancel
  · exact iff_of_false Bool.false_ne_true fun ⟨_, hn⟩ => not_isToCome_concat_cancel hn
  · rw [fired_cancel, hcount]
    exact (Nat.le_add_right _ _).trans h.spent

/-- The call to come comes through and is spent by that. -/
lemma Follows.deliver_eq (h : u.Follows events) {m : Nat} (hcome : IsToCome events m)
    (time : Int) : ∃ clock, u.step (.deliver m time) = { u with run :=
      { u.run with
        timer := { u.run.timer with pending := false }
        clock := clock
        fired := u.run.fired ++ [time] } } := by
  have hm : m < u.passed.length := by
    have := hcome.succ_eq
    rw [h.length]
    omega
  have hcall := List.getElem?_eq_getElem hm
  have hexpects := (h.expects_iff m _ hcall).2 hcome
  refine ⟨u.run.clock.deliver ⟨time, (), u.passed[m]⟩, ?_⟩
  simp only [step, hcall, TimerRun.deliver, Timer.deliver, hexpects, if_true]
  rfl

/-- Any other call is dropped. -/
lemma Follows.deliver_eq_of_not (h : u.Follows events) {m : Nat}
    (hcome : ¬IsToCome events m) (time : Int) :
    ∃ clock, u.step (.deliver m time) = { u with run := { u.run with clock := clock } } := by
  cases hcall : u.passed[m]? with
  | none => exact ⟨u.run.clock, by simp only [step, hcall]⟩
  | some generation =>
    have hstale : u.run.timer.expects generation = false :=
      Bool.eq_false_iff.2 fun hexpects => hcome ((h.expects_iff m generation hcall).1 hexpects)
    refine ⟨u.run.clock.deliver ⟨time, (), generation⟩, ?_⟩
    simp only [step, hcall, TimerRun.deliver, Timer.deliver, hstale, Bool.false_eq_true, if_false]

lemma Follows.deliver (h : u.Follows events) (m : Nat) (time : Int) :
    (u.step (.deliver m time)).Follows (events ++ [.deliver m time]) := by
  have hcount : (events ++ [Event.deliver m time]).count .start = events.count .start := by simp
  by_cases hcome : IsToCome events m
  · obtain ⟨clock, hstep⟩ := h.deliver_eq hcome time
    have hnone : ∀ n, ¬IsToCome (events ++ [.deliver m time]) n := fun n hn => by
      obtain ⟨hn, hne⟩ := isToCome_concat_deliver.1 hn
      have := hn.succ_eq
      have := hcome.succ_eq
      omega
    have hspent := h.spent
    rw [h.pending_iff.2 ⟨m, hcome⟩, Bool.toNat_true] at hspent
    rw [hstep]
    refine ⟨h.length.trans hcount.symm, h.past, fun n _ _ => ?_, ?_, ?_⟩
    · exact iff_of_false Bool.false_ne_true (hnone n)
    · exact iff_of_false Bool.false_ne_true fun ⟨n, hn⟩ => hnone n hn
    · rw [hcount]
      simpa using hspent
  · obtain ⟨clock, hstep⟩ := h.deliver_eq_of_not hcome time
    have hsame : ∀ n, IsToCome (events ++ [.deliver m time]) n ↔ IsToCome events n := fun n => by
      rw [isToCome_concat_deliver]
      exact and_iff_left_of_imp fun hn hmn => hcome (hmn ▸ hn)
    rw [hstep]
    refine ⟨h.length.trans hcount.symm, h.past, fun n generation hn => ?_, ?_, ?_⟩
    · rw [hsame]
      exact h.expects_iff n generation hn
    · simp only [hsame]
      exact h.pending_iff
    · rw [hcount]
      exact h.spent

lemma Follows.step (h : u.Follows events) (event : Event) :
    (u.step event).Follows (events ++ [event]) := by
  cases event with
  | start => exact h.start
  | cancel => exact h.cancel
  | deliver m time => exact h.deliver m time

lemma follows_after (delay : Delay) (keepsCancelled : Bool) (events : List Event) :
    (after delay keepsCancelled events).Follows events := by
  induction events using List.reverseRecOn with
  | nil => exact follows_new delay keepsCancelled
  | append_singleton events event ih =>
    rw [after, List.foldl_concat]
    exact ih.step event

end Unruly

/-! ### What comes through -/

/--
Whatever a scheduler delivers, a call comes through if and only if it is that of the most recent
start, and since then nothing was cancelled and the call was not delivered before. Starting and
cancelling let nothing through. The timer is pending, and cancelling it says so, if and only if such
a call is still to come. So no more calls come through than there were starts.
-/
theorem comes_through_iff_isToCome (delay : Delay) (keepsCancelled : Bool) (events : List Event) :
    let u := Unruly.after delay keepsCancelled events
    (∀ n time,
      ((u.step (.deliver n time)).run.fired = u.run.fired ++ [time] ↔ IsToCome events n) ∧
      ((u.step (.deliver n time)).run.fired = u.run.fired ↔ ¬IsToCome events n)) ∧
    (u.step .start).run.fired = u.run.fired ∧
    (u.step .cancel).run.fired = u.run.fired ∧
    (u.run.timer.pending = true ↔ ∃ n, IsToCome events n) ∧
    (u.run.cancel.2 = true ↔ ∃ n, IsToCome events n) ∧
    u.run.fired.length ≤ events.count .start := by
  intro u
  have h : u.Follows events := Unruly.follows_after delay keepsCancelled events
  refine ⟨fun n time => ?_, u.fired_start, u.fired_cancel, h.pending_iff, h.pending_iff,
    (Nat.le_add_right _ _).trans h.spent⟩
  by_cases hcome : IsToCome events n
  · obtain ⟨clock, hstep⟩ := h.deliver_eq hcome time
    rw [hstep]
    exact ⟨iff_of_true rfl hcome, iff_of_false (by simp) (not_not.2 hcome)⟩
  · obtain ⟨clock, hstep⟩ := h.deliver_eq_of_not hcome time
    rw [hstep]
    exact ⟨iff_of_false (by simp) hcome, iff_of_true rfl hcome⟩

end Workflow.TimerRun
