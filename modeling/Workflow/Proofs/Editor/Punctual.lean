import Workflow.Proofs.Editor.Schedule
import Workflow.Proofs.Number.Sign

/-!
# Calls that come in time

No delay of a valid configuration is negative. So in every session no call on the clock is overdue,
and the clock never goes back, not even if a call fails and time stops there.
-/

namespace Workflow

/-! ### Configurations -/

/-- A configuration as it may be: history has room for an entry, and no delay is negative. -/
structure Config.IsValid (c : Config) : Prop where
  maxStates : 1 ≤ c.history.maxStates
  applyDelay : 0 ≤ c.history.applyDelay
  recordDebounce : 0 ≤ c.history.recordDebounce
  autosaveDelay : 0 ≤ c.storage.autosaveDelay

section Reading

variable {α : Type}

lemma of_optional {P : α → Prop} {ms : Members} {name : String} {others : List String}
    {standard : α} {readMember : Document → Reading α} (hstandard : P standard)
    (hread : ∀ d a, readMember d = .ok a → P a) {a : α}
    (h : ms.optional name others standard readMember = .ok a) : P a := by
  rw [Members.optional, Members.read] at h
  split at h
  · next d _ =>
    cases hd : readMember d with
    | ok b =>
      rw [hd] at h
      exact Reading.ok.inj h ▸ hread d b hd
    | failed issues =>
      rw [hd] at h
      cases h
  · exact Reading.ok.inj h ▸ hstandard

lemma of_atLeast {minimum : Nat} {below : α → Bool} {r : Reading α} {a : α}
    (h : Reading.atLeast minimum below r = .ok a) : below a = false := by
  rw [Reading.atLeast] at h
  cases r with
  | failed issues => cases h
  | ok b =>
    rw [Reading.andThen] at h
    split_ifs at h with hbelow
    · cases h
    · exact Reading.ok.inj h ▸ Bool.eq_false_iff.2 hbelow

lemma readDelay_nonneg {d : Document} {x : Float} (h : readDelay d = .ok x) : 0 ≤ x := by
  simpa using of_atLeast h

lemma HistoryConfig.valid_of_read {d : Document} {history : HistoryConfig}
    (h : HistoryConfig.read d = .ok history) :
    1 ≤ history.maxStates ∧ 0 ≤ history.applyDelay ∧ 0 ≤ history.recordDebounce := by
  cases d with
  | object ms =>
    obtain ⟨_, debounce, hmake, hdebounce, rfl⟩ := Reading.seq_eq_ok_iff.1 h
    obtain ⟨_, delay, hmake', hdelay, rfl⟩ := Reading.seq_eq_ok_iff.1 hmake
    obtain ⟨states, hstates, rfl⟩ := Reading.map_eq_ok_iff.1 hmake'
    refine ⟨?_, ?_, ?_⟩
    · refine of_optional (P := fun n : Int => 1 ≤ n) (by decide) (fun d n hn => ?_) hstates
      simpa using of_atLeast hn
    · exact of_optional (P := fun x : Float => 0 ≤ x) (by decide) (fun _ _ => readDelay_nonneg)
        hdelay
    · exact of_optional (P := fun x : Float => 0 ≤ x) (by decide) (fun _ _ => readDelay_nonneg)
        hdebounce
  | _ => cases h

lemma StorageConfig.valid_of_read {d : Document} {storage : StorageConfig}
    (h : StorageConfig.read d = .ok storage) : 0 ≤ storage.autosaveDelay := by
  cases d with
  | object ms =>
    obtain ⟨make, delay, hmake, hdelay, rfl⟩ := Reading.seq_eq_ok_iff.1 h
    obtain ⟨path, -, rfl⟩ := Reading.map_eq_ok_iff.1 hmake
    exact of_optional (P := fun x : Float => 0 ≤ x) (by decide) (fun _ _ => readDelay_nonneg) hdelay
  | _ => cases h

/-- Every configuration that can be read is valid. -/
theorem Config.isValid_of_read {d : Document} {c : Config} (h : Config.read d = .ok c) :
    c.IsValid := by
  cases d with
  | object ms =>
    obtain ⟨make, storage, hmake, hstorage, rfl⟩ := Reading.seq_eq_ok_iff.1 h
    obtain ⟨history, hhistory, rfl⟩ := Reading.map_eq_ok_iff.1 hmake
    obtain ⟨hroom, hdelay, hdebounce⟩ := of_optional
      (P := fun x : HistoryConfig => 1 ≤ x.maxStates ∧ 0 ≤ x.applyDelay ∧ 0 ≤ x.recordDebounce)
      (by decide) (fun _ _ => HistoryConfig.valid_of_read) hhistory
    exact ⟨hroom, hdelay, hdebounce, of_optional (P := fun x : StorageConfig => 0 ≤ x.autosaveDelay)
      (by decide) (fun _ _ => StorageConfig.valid_of_read) hstorage⟩
  | _ => cases h

end Reading

namespace Editor

/-- No call on the clock is overdue. -/
def Punctual (e : Editor) : Prop :=
  ∀ call ∈ e.clock.calls, e.clock.now ≤ call.due

/-- What is on the clock and due by some time are the given calls, the earliest first. -/
structure Delivers (e : Editor) (target : Int) (calls : List (Call TimerName)) : Prop where
  sorted : calls.Pairwise fun a b => a.due ≤ b.due
  due_le : ∀ call ∈ calls, call.due ≤ target
  mem_or_lt : ∀ call ∈ e.clock.calls, call ∈ calls ∨ target < call.due

section Punctual

variable {e : Editor} {target : Int} {calls : List (Call TimerName)}

lemma delay_nonneg (h : e.config.IsValid) {name : TimerName} {delay : Int}
    (hdelay : e.delay name = .finite delay) : 0 ≤ delay := by
  cases name with
  | applying => exact Delay.ofSeconds_nonneg h.applyDelay hdelay
  | recording => exact Delay.ofSeconds_nonneg h.recordDebounce hdelay
  | saving => exact Delay.ofSeconds_nonneg h.autosaveDelay hdelay

/-! ### While time stands still -/

lemma Punctual.cancelTimer (h : e.Punctual) (name : TimerName) : (e.cancelTimer name).Punctual :=
  fun call hcall => h call (List.mem_of_mem_filter hcall)

lemma now_startTimer (e : Editor) (name : TimerName) :
    (e.startTimer name).clock.now = e.clock.now :=
  (congrArg (fun x : Editor => x.clock.now) (still_startTimer e name) :)

lemma Punctual.startTimer (h : e.Punctual) (hvalid : e.config.IsValid) (name : TimerName) :
    (e.startTimer name).Punctual := by
  intro call hcall
  rw [now_startTimer]
  rw [Editor.startTimer] at hcall
  cases hdelay : e.delay name with
  | finite span =>
    rw [hdelay] at hcall
    rcases List.mem_append.1 hcall with hcall | hcall
    · exact h.cancelTimer name call hcall
    · rw [List.mem_singleton.1 hcall]
      exact Int.le_add_of_nonneg_right (delay_nonneg hvalid hdelay)
  | endless =>
    rw [hdelay] at hcall
    exact h.cancelTimer name call hcall

lemma keptByReactions_punctual : KeptByReactions fun x => x.config.IsValid → x.Punctual where
  cancelTimer x name _ h hvalid := by
    have hconfig : (x.cancelTimer name).config = x.config := by cases name <;> rfl
    exact (h (hconfig ▸ hvalid)).cancelTimer name
  startTimer x name _ h hvalid := by
    have hconfig : (x.startTimer name).config = x.config := by cases name <;> rfl
    rw [hconfig] at hvalid
    exact (h hvalid).startTimer hvalid name
  signals _ _ h := h
  unsaved _ _ h := h
  announced _ _ h := h

lemma keptByUse_punctual : KeptByUse fun x => x.config.IsValid → x.Punctual where
  toKeptByTimers := keptByReactions_punctual.toKeptByTimers
  inAction _ _ h := h
  unwatched _ h := h
  unattended _ h := h
  unsaved _ h := h
  files _ _ h := h
  trace _ _ h := h
  clearHistory _ h := h
  push _ _ h _ := h
  applying _ _ h := h
  opened _ h hvalid := (h hvalid).startTimer hvalid .applying
  travelled x m left s rest h _ _ := by
    refine keptByReactions_punctual.announce ?_ .state
    cases m <;> exact h
  flagged x value h := by
    refine keptByReactions_punctual.announce ?_ .executing
    exact h

/-! ### While time passes -/

lemma mem_dueBy_iff {clock : Clock TimerName} {call : Call TimerName} :
    call ∈ clock.dueBy target ↔ call ∈ clock.calls ∧ call.due ≤ target := by
  simp [Clock.dueBy]

lemma delivers_dueBy (e : Editor) (target : Int) : e.Delivers target (e.clock.dueBy target) where
  sorted := by
    rw [Clock.dueBy]
    refine (List.pairwise_mergeSort ?_ ?_ _).imp of_decide_eq_true
    · intro a b c hab hbc
      exact decide_eq_true ((of_decide_eq_true hab).trans (of_decide_eq_true hbc))
    · intro a b
      simpa using Int.le_total a.due b.due
  due_le call hcall := (mem_dueBy_iff.1 hcall).2
  mem_or_lt call hcall := by
    rw [mem_dueBy_iff]
    by_cases hdue : call.due ≤ target
    · exact .inl ⟨hcall, hdue⟩
    · exact .inr (not_le.1 hdue)

lemma Delivers.deliver {call : Call TimerName} (h : e.Delivers target (call :: calls)) :
    (e.deliver call).editor.Delivers target calls ∧ (e.deliver call).editor.Punctual := by
  obtain ⟨hfirst, hlater⟩ := List.pairwise_cons.1 h.sorted
  have hmem : ∀ other ∈ (e.deliver call).editor.clock.calls,
      other ∈ calls ∨ target < other.due := by
    intro other hother
    rw [calls_deliver] at hother
    obtain ⟨hother, hkept⟩ := List.mem_filter.1 hother
    rcases h.mem_or_lt other hother with hdue | hlate
    · rcases List.mem_cons.1 hdue with rfl | hdue
      · simp at hkept
      · exact .inl hdue
    · exact .inr hlate
  refine ⟨⟨hlater, fun other hother => h.due_le other (List.mem_cons_of_mem _ hother), hmem⟩,
    fun other hother => ?_⟩
  rw [now_deliver]
  rcases hmem other hother with hdue | hlate
  · exact hfirst other hdue
  · exact (h.due_le call List.mem_cons_self).trans hlate.le

/-- Calls that come in order leave none overdue, and once they came all others come later. -/
lemma Delivers.deliverAll (h : e.Delivers target calls) (hpunctual : e.Punctual) :
    (e.deliverAll calls).editor.Punctual ∧ ((e.deliverAll calls).answer = .ok () →
      ∀ call ∈ (e.deliverAll calls).editor.clock.calls, target < call.due) := by
  induction calls generalizing e with
  | nil => exact ⟨hpunctual, fun _ call hcall => (h.mem_or_lt call hcall).resolve_left nofun⟩
  | cons call calls ih =>
    obtain ⟨hlater, hpunctual'⟩ := h.deliver
    rw [Editor.deliverAll]
    cases hanswer : (e.deliver call).answer with
    | error f =>
      -- time stops at this call, and the later ones are still ahead
      rw [Outcome.andThen_of_error hanswer]
      exact ⟨hpunctual', nofun⟩
    | ok =>
      rw [Outcome.andThen_of_ok hanswer]
      exact ih hlater hpunctual'

lemma Punctual.advance (h : e.Punctual) (span : Int) : (e.advance span).editor.Punctual := by
  obtain ⟨hpunctual, hlate⟩ := (e.delivers_dueBy (e.clock.now + span)).deliverAll h
  rw [Editor.advance]
  cases hanswer : (e.deliverAll (e.clock.dueBy (e.clock.now + span))).answer with
  | error f =>
    rw [Outcome.andThen_of_error hanswer]
    exact hpunctual
  | ok =>
    rw [Outcome.andThen_of_ok hanswer]
    exact fun call hcall => (hlate hanswer call hcall).le

lemma Punctual.now_le_advance (h : e.Punctual) (span : Nat) :
    e.clock.now ≤ (e.advance span).editor.clock.now := by
  have hdelivered : e.clock.now
      ≤ (e.deliverAll (e.clock.dueBy (e.clock.now + span))).editor.clock.now := by
    refine deliverAll_kept (P := fun x => e.clock.now ≤ x.clock.now) (fun x call hcall _ => ?_)
      (le_refl _)
    rw [now_deliver]
    exact h call (mem_dueBy_iff.1 hcall).1
  refine Outcome.andThen_editor (P := fun x => e.clock.now ≤ x.clock.now) hdelivered fun _ => ?_
  exact Int.le_add_of_nonneg_right (Int.natCast_nonneg span)

/-! ### Sessions -/

/-- In every session with a valid configuration no call is overdue. -/
theorem Reachable.punctual (h : e.Reachable) (hvalid : e.config.IsValid) : e.Punctual := by
  revert hvalid
  induction h with
  | opened config autosaving epoch files room => exact fun _ => nofun
  | @after x _ op ih =>
    by_cases hedit : op.IsEdit
    · have hedited := edited_perform (e := x) hedit
      generalize x.perform op = x' at hedited
      cases hedited with
      | kept serial => exact ih
      | announced serial hstep change =>
        refine keptByReactions_punctual.announce ?_ change
        exact ih
    · refine keptByUse_punctual.perform hedit (fun _ w _ hy => ?_) (fun span _ hvalid => ?_) ih
      · refine keptByReactions_punctual.announce ?_ .state
        exact hy
      · rw [config_advance] at hvalid
        exact (ih hvalid).advance span

end Punctual

end Editor

end Workflow
