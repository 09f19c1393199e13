import Workflow.Proofs.Editor.Delivery
import Workflow.Proofs.Editor.Session
import Workflow.Proofs.Editor.Timeline

/-!
# What an editor keeps as it works

All that an editor does beside being edited is made of a few small changes: of its timers, of its
files and of its stacks. A fact that none of them disturbs is kept by every operation that is no
edit, and by the calls that come through. Many operations leave the stacks alone.
-/

namespace Workflow.Editor

/-- A fact about an editor that nothing disturbs of what leaves graph and history alone. -/
structure KeptByChores (P : Editor → Prop) : Prop extends KeptByTimers P where
  inAction : ∀ e value, P e → P { e with inAction := value }
  unwatched : ∀ e, P e → P { e with watching := false }
  unattended : ∀ e, P e → P { e with autosaving := false }
  unsaved : ∀ e, P e → P { e with unsaved := none }
  files : ∀ e files, P e → P { e with files := files }
  trace : ∀ e trace, P e → P { e with trace := trace }
  flagged : ∀ e value, P e → P (e.setExecuting value).editor

/-- A fact about an editor that nothing disturbs of what is done beside edits, undo and redo. -/
structure KeptByRecording (P : Editor → Prop) : Prop extends KeptByChores P where
  clearHistory : ∀ e, P e → P e.clearHistory
  push : ∀ e s, P e → e.snapshot = .ok s → P (e.push s)

/-- A fact about an editor that nothing disturbs of what is done with it beside editing it. -/
structure KeptByUse (P : Editor → Prop) : Prop extends KeptByRecording P where
  applying : ∀ e value, P e → P { e with applying := value }
  opened : ∀ e, P e → P (e.startTimer .applying)
  travelled : ∀ e m left s rest, P e → e.snapshot = .ok left → e.ahead m = s :: rest →
    P ((e.shift m left rest).replaceState s).editor

/-- Such a fact that neither time nor the calls disturb that come through. -/
structure KeptByWork (P : Editor → Prop) : Prop extends KeptByUse P where
  now : ∀ e now, P e → P { e with clock := { e.clock with now := now } }
  taken : ∀ e call, P e → (e.timer call.owner).expects call.generation = true → P (e.taken call)
  stale : ∀ e call, P e → (e.timer call.owner).expects call.generation = false →
    P { e with clock := e.clock.deliver call }

/-- Whether an operation leaves the graph and its history alone, and no time passes in it. -/
def Operation.IsChore : Operation → Prop
  | beginAction | scheduleRecording | stopRecorder | execute | save | close | clearStorage
  | cancelAutosave | changeFiles _ => True
  | _ => False

/-- The step along the history that an operation takes, if it is undo or redo. -/
def Operation.travel? : Operation → Option Travel
  | undo => some .back
  | redo => some .forth
  | _ => none

namespace KeptByChores

variable {P : Editor → Prop} {e : Editor}

lemma stopRecorder (hP : KeptByChores P) (h : P e) : P e.stopRecorder :=
  hP.cancelTimer _ .recording nofun (hP.unwatched e h)

/-! ### Files -/

lemma write (hP : KeptByChores P) (h : P e) (w : Export) : P (e.write w).editor := by
  obtain ⟨files, hwritten⟩ := exists_write_editor e w
  rw [hwritten]
  exact hP.files e files h

lemma flush (hP : KeptByChores P) (h : P e) : P e.flush.editor := by
  rw [Editor.flush]
  split
  · exact hP.write (hP.unsaved e h) _
  · exact h

lemma clearStorage (hP : KeptByChores P) (h : P e) : P e.clearStorage.editor := by
  rw [Editor.clearStorage]
  split
  · exact hP.files e _ h
  · rw [refused_editor]
    exact h

lemma cancelAutosave (hP : KeptByChores P) (h : P e) : P e.cancelAutosave :=
  hP.unsaved _ (hP.cancelTimer e .saving nofun h)

lemma close (hP : KeptByChores P) (h : P e) : P e.close :=
  hP.cancelAutosave (hP.unattended _ (hP.stopRecorder h))

/-! ### Runs -/

lemma execute (hP : KeptByChores P) (h : P e) : P e.execute.editor := by
  have hset := hP.flagged e true h
  refine Outcome.andThen_editor hset fun _ => ?_
  have hreset := fun trace => hP.flagged _ false (hP.trace _ trace hset)
  refine Outcome.andThen_editor (hreset _) fun _ => ?_
  split <;> exact hreset _

/-! ### Operations -/

lemma perform (hP : KeptByChores P) {op : Operation} (hop : op.IsChore) (h : P e) :
    P (e.perform op) := by
  cases op with
  | beginAction => exact hP.inAction e true h
  | scheduleRecording => exact hP.scheduleRecording h
  | stopRecorder => exact hP.stopRecorder h
  | execute => exact hP.execute h
  | save => exact hP.write h _
  | close => exact hP.close h
  | clearStorage => exact hP.clearStorage h
  | cancelAutosave => exact hP.cancelAutosave h
  | changeFiles files => exact hP.files e files h
  | _ => exact hop.elim

end KeptByChores

namespace KeptByRecording

variable {P : Editor → Prop} {e : Editor}

/-! ### History -/

lemma recordState (hP : KeptByRecording P) (h : P e) (force : Bool) :
    P (e.recordState force).editor := by
  rcases recordState_cases e force with ⟨s, hs, hrecorded⟩ | ⟨hsame, -⟩
  · rw [hrecorded]
    exact hP.push e s h hs
  · rw [hsame]
    exact h

lemma endAction (hP : KeptByRecording P) (h : P e) : P e.endAction.editor :=
  hP.recordState (hP.cancelTimer _ .recording nofun (hP.inAction e false h)) _

/-- Loading keeps it if importing what is stored does. -/
lemma load (hP : KeptByRecording P)
    (himport : ∀ w, e.stored = .ok (some w) → P e.beginAction →
      P (e.beginAction.importExport w).editor)
    (h : P e) : P e.load.editor := by
  rw [Editor.load]
  split
  · exact h
  · exact h
  · next w hstored =>
    have himported := himport w hstored (hP.inAction e true h)
    exact Outcome.andThen_editor himported fun _ => hP.endAction (hP.clearHistory _ himported)

/-! ### Calls and operations -/

/-- A call that does not end the window of undo and redo keeps it. -/
lemma fire (hP : KeptByRecording P) (h : P e) {name : TimerName} (hname : name ≠ .applying) :
    P (e.fire name).editor := by
  cases name with
  | applying => exact absurd rfl hname
  | recording =>
    rw [Editor.fire]
    split_ifs
    · exact h
    · exact hP.recordState h false
  | saving => exact hP.flush h

/--
What recording keeps, every operation keeps that is no edit, if undo and redo, importing and time
keep it too.
-/
lemma perform (hP : KeptByRecording P) {op : Operation} (hop : ¬op.IsEdit)
    (htravel : ∀ m, op.travel? = some m → P (e.travel m).editor)
    (himport : op = .load → ∀ w, e.stored = .ok (some w) → P e.beginAction →
      P (e.beginAction.importExport w).editor)
    (hadvance : ∀ span, op = .advance span → P (e.advance span).editor) (h : P e) :
    P (e.perform op) := by
  by_cases hchore : op.IsChore
  · exact hP.toKeptByChores.perform hchore h
  cases op with
  | record force => exact hP.recordState h force
  | undo => exact htravel .back rfl
  | redo => exact htravel .forth rfl
  | clearHistory => exact hP.clearHistory e h
  | endAction => exact hP.endAction h
  | load => exact hP.load (himport rfl) h
  | advance span => exact hadvance span rfl
  | beginAction | scheduleRecording | stopRecorder | execute | save | close | clearStorage
  | cancelAutosave | changeFiles => exact absurd trivial hchore
  | _ => exact absurd trivial hop

end KeptByRecording

namespace KeptByUse

variable {P : Editor → Prop} {e : Editor}

/-! ### Undo and redo -/

lemma beginApplying (hP : KeptByUse P) (h : P e) : P e.beginApplying :=
  hP.opened _ (hP.applying e true h)

lemma ahead_beginApplying (e : Editor) (m : Travel) : e.beginApplying.ahead m = e.ahead m := by
  cases m with
  | back => exact (congrArg Editor.past (still_beginApplying e) :)
  | forth => exact (congrArg Editor.future (still_beginApplying e) :)

/-- Undo and redo keep it. -/
lemma travel (hP : KeptByUse P) (h : P e) (m : Travel) : P (e.travel m).editor := by
  cases hahead : e.ahead m with
  | nil =>
    rw [travel_nil hahead]
    exact h
  | cons s rest =>
    have hbegun := hP.beginApplying h
    rw [travel_cons hahead]
    cases hleft : e.beginApplying.snapshot with
    | error f =>
      rw [withSnapshot_of_error hleft]
      exact hbegun
    | ok left =>
      rw [withSnapshot_of_ok hleft]
      exact hP.travelled _ m left s rest hbegun hleft ((ahead_beginApplying e m).trans hahead)

/-! ### Calls and operations -/

lemma fire (hP : KeptByUse P) (h : P e) (name : TimerName) : P (e.fire name).editor := by
  by_cases hname : name = .applying
  · subst hname
    exact hP.applying e false h
  · exact hP.toKeptByRecording.fire h hname

/-- What use keeps, every operation keeps that is no edit, if importing and time keep it too. -/
lemma perform (hP : KeptByUse P) {op : Operation} (hop : ¬op.IsEdit)
    (himport : op = .load → ∀ w, e.stored = .ok (some w) → P e.beginAction →
      P (e.beginAction.importExport w).editor)
    (hadvance : ∀ span, op = .advance span → P (e.advance span).editor) (h : P e) :
    P (e.perform op) :=
  hP.toKeptByRecording.perform hop (fun m _ => hP.travel h m) himport hadvance h

end KeptByUse

namespace KeptByWork

variable {P : Editor → Prop} {e : Editor}

lemma deliver (hP : KeptByWork P) (h : P e) (call : Call TimerName) :
    P (e.deliver call).editor := by
  cases hcall : (e.timer call.owner).expects call.generation with
  | true =>
    rw [deliver_of_expects hcall]
    exact hP.fire (hP.taken e call h hcall) _
  | false =>
    rw [deliver_of_stale hcall]
    exact hP.stale e call h hcall

lemma advance (hP : KeptByWork P) (h : P e) (span : Int) : P (e.advance span).editor :=
  advance_kept (fun _ call hx => hP.deliver hx call) (fun e now hx => hP.now e now hx) h span

/-- What work keeps, every operation keeps that is no edit, if importing keeps it too. -/
lemma perform (hP : KeptByWork P) {op : Operation} (hop : ¬op.IsEdit)
    (himport : op = .load → ∀ w, e.stored = .ok (some w) → P e.beginAction →
      P (e.beginAction.importExport w).editor) (h : P e) :
    P (e.perform op) :=
  hP.toKeptByUse.perform hop himport (fun span _ => hP.advance h span) h

end KeptByWork

/-! ### What an editor holds -/

/-- What an editor holds beside its configuration: the present state, and those of its history. -/
def held (e : Editor) : Editor where
  config := e.config
  copyRoom := e.copyRoom
  state := e.state
  misfits := e.misfits
  past := e.past
  future := e.future

lemma held_of_still {e e' : Editor} (h : e'.still = e.still) : e'.held = e.held :=
  (congrArg held h :)

section Held

variable {P : Editor → Prop}

/-- A fact about what an editor holds is kept as long as the executing flag does not disturb it. -/
lemma KeptByChores.of_held (hP : ∀ e e', e'.held = e.held → P e → P e')
    (hflagged : ∀ e value, P e → P (e.setExecuting value).editor) : KeptByChores P where
  cancelTimer e name _ := hP e _ (held_of_still (still_cancelTimer e name))
  startTimer e name _ := hP e _ (held_of_still (still_startTimer e name))
  inAction e _ := hP e _ rfl
  unwatched e := hP e _ rfl
  unattended e := hP e _ rfl
  unsaved e := hP e _ rfl
  files e _ := hP e _ rfl
  trace e _ := hP e _ rfl
  flagged := hflagged

lemma held_taken (e : Editor) (call : Call TimerName) : (e.taken call).held = e.held := by
  obtain ⟨due, owner, generation⟩ := call
  cases owner <;> rfl

/-- A fact about what an editor holds is kept if what changes history does not disturb it. -/
lemma KeptByWork.of_held (hP : ∀ e e', e'.held = e.held → P e → P e')
    (hflagged : ∀ e value, P e → P (e.setExecuting value).editor)
    (hclear : ∀ e, P e → P e.clearHistory)
    (hpush : ∀ e s, P e → e.snapshot = .ok s → P (e.push s))
    (htravelled : ∀ e m left s rest, P e → e.snapshot = .ok left → e.ahead m = s :: rest →
      P ((e.shift m left rest).replaceState s).editor) : KeptByWork P where
  toKeptByChores := .of_held hP hflagged
  clearHistory := hclear
  push := hpush
  applying e _ := hP e _ rfl
  opened e := hP e _ (held_of_still (still_startTimer e .applying))
  travelled := htravelled
  now e _ := hP e _ rfl
  taken e call h _ := hP e _ (held_taken e call) h
  stale e _ h _ := hP e _ rfl h

lemma config_announce (e : Editor) (change : Change) :
    (e.announce change).editor.config = e.config :=
  (congrArg Editor.config (still_announce e change) :)

lemma keptByWork_config (config : Config) : KeptByWork fun x => x.config = config := by
  refine .of_held (fun x x' heq h => ?_) (fun x value h => ?_) (fun x h => h) (fun x s h _ => h)
    fun x m left s rest h _ _ => ?_
  · have hconfig : x'.config = x.config := (congrArg Editor.config heq :)
    exact hconfig.trans h
  · exact (config_announce _ _).trans h
  · refine (config_announce _ _).trans ?_
    cases m <;> exact h

/-- No operation touches the configuration. -/
lemma config_perform (e : Editor) (op : Operation) : (e.perform op).config = e.config := by
  by_cases hedit : op.IsEdit
  · have hedited := edited_perform (e := e) hedit
    generalize e.perform op = x at hedited
    cases hedited with
    | kept serial => rfl
    | announced serial hstep change => exact config_announce _ change
  · exact (keptByWork_config e.config).perform hedit (fun _ _ _ _ => config_announce _ _) rfl

end Held

end Workflow.Editor
