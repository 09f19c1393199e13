import Workflow.Proofs.Editor.Comparing
import Workflow.Proofs.Editor.Execution
import Workflow.Proofs.Editor.Lasting

/-!
# Edits that are recorded

An edit that the recorder sees is recorded once the editor was left alone for the recorder's delay.
Within the window of undo and redo it is not, as the recorder takes every change in it for the undo
or the redo itself.
-/

namespace Workflow

namespace Editor

/-- Whether the recorder sees another graph after an operation than it saw last. -/
def Stirs (e : Editor) (op : Operation) : Prop :=
  ∃ signals, (e.perform op).state.graph.signals = .ok signals ∧ signals ≠ e.signals

/-- Whether a recording is due at some time. -/
def AwaitsAt (e : Editor) (due : Int) : Prop :=
  ∃ call ∈ e.clock.calls, call.owner = .recording ∧ call.due = due

variable {e : Editor} {due : Int}

/-! ### What the recorder notes -/

/-- A recorder that sees another graph starts its timer, or cancels it in the window of undo. -/
lemma recorderReacts_of_ne {signals : Signals} (hwatching : e.watching = true)
    (hsignals : e.state.graph.signals = .ok signals) (hne : signals ≠ e.signals) :
    e.recorderReacts =
      (if e.applying then { e with signals := signals }.cancelTimer .recording
      else { e with signals := signals }.scheduleRecording).done () := by
  simp only [recorderReacts, hwatching, hsignals, hne, Bool.not_true, Bool.false_eq_true, if_false]

/-- Outside the window of undo and redo, and of an action, it starts its timer. -/
lemma recorderReacts_editor_of_ne {signals : Signals} (hwatching : e.watching = true)
    (hidle : e.inAction = false) (happlying : e.applying = false)
    (hsignals : e.state.graph.signals = .ok signals) (hne : signals ≠ e.signals) :
    e.recorderReacts.editor = { e with signals := signals }.startTimer .recording := by
  rw [recorderReacts_of_ne hwatching hsignals hne, scheduleRecording]
  exact (if_neg (Bool.eq_false_iff.1 happlying)).trans (if_neg (Bool.eq_false_iff.1 hidle))

/-- A recorder that sees nothing new, or nothing at all, does nothing. -/
lemma recorderReacts_editor_of_same
    (h : ∀ signals, e.state.graph.signals = .ok signals → signals = e.signals) :
    e.recorderReacts.editor = e := by
  rw [recorderReacts]
  split_ifs
  · rfl
  · cases hsignals : e.state.graph.signals with
    | error reason => rfl
    | ok signals => simp only [h signals hsignals, if_true, done]

/-- The other reactions leave a recording where it is. -/
lemma AwaitsAt.startTimer {name : TimerName} (h : e.AwaitsAt due) (hname : .recording ≠ name) :
    (e.startTimer name).AwaitsAt due := by
  obtain ⟨call, hcall, howner, hdue⟩ := h
  have hkept : call ∈ (e.clock.withdraw name (e.timer name).generation).calls :=
    List.mem_filter.2 ⟨hcall, by simp [howner, hname]⟩
  refine ⟨call, ?_, howner, hdue⟩
  rw [Editor.startTimer]
  cases e.delay name with
  | finite span => exact List.mem_append_left _ hkept
  | endless => exact hkept

lemma pending_startTimer {name : TimerName} {pending : Bool}
    (h : e.recordingTimer.pending = pending) (hname : .recording ≠ name) :
    (e.startTimer name).recordingTimer.pending = pending :=
  (congrArg Timer.pending (timer_startTimer_of_ne e hname) :).trans h

lemma AwaitsAt.announce {change : Change} (h : e.recorderReacts.editor.AwaitsAt due) :
    (e.announce change).editor.AwaitsAt due :=
  announce_kept (P := fun x => x.AwaitsAt due) h (fun _ _ hx => hx)
    (fun _ hx => hx.startTimer (by decide)) fun _ _ hx => hx

/-! ### Edits -/

/-- What an edit leaves alone. -/
structure Undisturbed (e e' : Editor) : Prop where
  config : e'.config = e.config
  past : e'.past = e.past
  future : e'.future = e.future
  applying : e'.applying = e.applying
  watching : e'.watching = e.watching
  inAction : e'.inAction = e.inAction
  now : e'.clock.now = e.clock.now

lemma undisturbed_perform {op : Operation} (hop : op.IsEdit) : e.Undisturbed (e.perform op) := by
  have hedited := edited_perform (e := e) hop
  generalize e.perform op = e' at hedited
  cases hedited with
  | kept serial => exact ⟨rfl, rfl, rfl, rfl, rfl, rfl, rfl⟩
  | @announced serial state misfits hstep change =>
    have hstill :=
      still_announce { e with serial := serial, state := state, misfits := misfits } change
    exact ⟨(congrArg Editor.config hstill :), (congrArg Editor.past hstill :),
      (congrArg Editor.future hstill :), (congrArg Editor.applying hstill :),
      (congrArg Editor.watching hstill :), (congrArg Editor.inAction hstill :),
      (congrArg (fun x : Editor => x.clock.now) hstill :)⟩

lemma Stirs.announced {op : Operation} (h : e.Stirs op) (hop : op.IsEdit) (hnoted : e.Noted)
    (hwatching : e.watching = true) :
    ∃ serial state misfits change signals,
      e.perform op = ({ e with serial := serial, state := state, misfits := misfits }.announce
        change).editor ∧
      state.graph.signals = .ok signals ∧ signals ≠ e.signals := by
  obtain ⟨signals, hsignals, hne⟩ := h
  have hedited := edited_perform (e := e) hop
  generalize e.perform op = e' at hsignals hedited
  cases hedited with
  | kept serial =>
    -- the graph is as it was, and the recorder has noted it already
    exact absurd (hnoted hwatching signals hsignals).symm hne
  | @announced serial state misfits hstep change =>
    have hstate : ({ e with serial := serial, state := state, misfits := misfits }.announce
        change).editor.state = state := congrArg Editor.state (still_announce _ change)
    exact ⟨serial, state, misfits, change, signals, rfl, hstate ▸ hsignals, hne⟩

/-- Outside the window of undo and redo, a stirring edit is recorded after the delay. -/
lemma Stirs.awaitsAt {op : Operation} (h : e.Stirs op) (hop : op.IsEdit) (hnoted : e.Noted)
    (hwatching : e.watching = true) (hidle : e.inAction = false) (happlying : e.applying = false)
    {delay : Int} (hdelay : e.delay .recording = .finite delay) :
    (e.perform op).AwaitsAt (e.clock.now + delay) := by
  obtain ⟨serial, state, misfits, change, signals, hperform, hsignals, hne⟩ :=
    h.announced hop hnoted hwatching
  let edited : Editor := { e with serial := serial, state := state, misfits := misfits }
  have hdelay' : { edited with signals := signals }.delay .recording = .finite delay := hdelay
  rw [hperform]
  apply AwaitsAt.announce
  rw [recorderReacts_editor_of_ne (e := edited) hwatching hidle happlying hsignals hne,
    Editor.startTimer, hdelay']
  exact ⟨_, List.mem_append_right _ (List.mem_singleton_self _), rfl, rfl⟩

/-- It leaves a recording to come in any case. -/
lemma Stirs.pending {op : Operation} (h : e.Stirs op) (hop : op.IsEdit) (hnoted : e.Noted)
    (hwatching : e.watching = true) (hidle : e.inAction = false) (happlying : e.applying = false) :
    (e.perform op).recordingTimer.pending = true := by
  obtain ⟨serial, state, misfits, change, signals, hperform, hsignals, hne⟩ :=
    h.announced hop hnoted hwatching
  let edited : Editor := { e with serial := serial, state := state, misfits := misfits }
  rw [hperform]
  refine announce_kept (P := fun x => x.recordingTimer.pending = true) ?_ (fun _ _ hx => hx)
    (fun _ hx => pending_startTimer hx (by decide)) fun _ _ hx => hx
  rw [recorderReacts_editor_of_ne (e := edited) hwatching hidle happlying hsignals hne]
  rfl

/-- Whether history can take in the present: it can be kept, and compared to the newest entry. -/
def Recordable (e : Editor) : Prop :=
  (∃ s, e.snapshot = .ok s) ∧ ¬e.Clouded

lemma push_past (hvalid : e.config.IsValid) (s : EditorState) :
    ∃ older, (e.push s).past = s :: older := by
  have hroom := hvalid.maxStates
  rw [push]
  dsimp only
  split_ifs with hfull
  · cases hpast : e.past with
    | nil =>
      simp only [hpast, List.length_singleton] at hfull
      omega
    | cons newest older => exact ⟨(newest :: older).dropLast, rfl⟩
  · exact ⟨e.past, rfl⟩

/-- Recording what can be recorded leaves it as the newest entry, if it is not so already. -/
lemma Recordable.recordState (h : e.Recordable) (hvalid : e.config.IsValid) {text : String}
    (htext : e.state.fingerprint = .ok text)
    (hfinite : ∀ newest ∈ e.past.head?, newest.IsFinite) :
    (∃ recorded, (e.recordState false).answer = .ok recorded) ∧
      ∃ newest older, (e.recordState false).editor.past = newest :: older ∧
        newest.fingerprint = .ok text := by
  obtain ⟨⟨s, hs⟩, hclear⟩ := h
  have hprint : s.fingerprint = .ok text := by
    rw [EditorState.fingerprint, (snapshot_eq_ok hs).1]
    exact htext
  obtain ⟨same, hsame, hiff⟩ := exists_unchanged_eq hclear hfinite hprint
  simp only [Editor.recordState, withSnapshot, hs, hsame, Bool.false_eq_true, if_false]
  cases same with
  | true => exact ⟨⟨false, rfl⟩, hiff.1 rfl⟩
  | false =>
    obtain ⟨older, hpast⟩ := push_past hvalid s
    exact ⟨⟨true, rfl⟩, s, older, hpast, hprint⟩

end Editor

end Workflow
