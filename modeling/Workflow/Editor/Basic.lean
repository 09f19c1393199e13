import Workflow.Config.Basic
import Workflow.Editor.Copy
import Workflow.Editor.Fingerprint
import Workflow.Run.Error
import Workflow.Text.Utf8
import Workflow.Timer.Basic
import Workflow.Timer.Clock

/-!
# Editors

An editor holds a graph with its selection and executing flag, the stacks of undo and redo, a
recorder that turns bursts of edits into entries of history, and, if asked to, an autosaver. All of
it is one value, and every operation is a function from editors to editors. Timers run on the
editor's own clock.
-/

namespace Workflow

/-- What an editor announces after a change. -/
inductive Change where
  | nodes
  | edges
  | selection
  | executing
  /-- The whole state was replaced. -/
  | state
deriving DecidableEq

/-- Why an operation of an editor fails. -/
inductive EditorFailure where
  /-- What was handed over cannot be read as the model of the given name. -/
  | invalid (model : String) (issues : List Issue)
  | unknownNodeType (given : Document)
  /-- A node can only be updated with a mapping. -/
  | notMapping (kind : String)
  | run (e : RunError)
  /-- A state is nested too deep for a copy. -/
  | tooDeep
  /-- A state has no fingerprint. -/
  | noFingerprint (e : FingerprintFault)
  /-- What is to be saved is no JSON document. -/
  | unfit (e : DumpFault)
  /-- The editor's file cannot even be looked for. -/
  | badPath (p : FilePath) (e : PathFault)
  /-- The stored workflow is not a text. -/
  | undecodable (e : Text.Utf8Error)

/-- The timers of an editor. -/
inductive TimerName where
  /-- Ends the window in which changes count as undo and redo. -/
  | applying
  /-- Records an entry of history. -/
  | recording
  /-- Saves the workflow. -/
  | saving
deriving DecidableEq

/--
What was given as the selection and as the executing flag of an editor but is no text and no
boolean. It stands in place of what the editor's state says.
-/
structure Misfits where
  selected : Option Value := none
  executing : Option Value := none

/-- An editor. -/
structure Editor where
  config : Config := {}
  /-- The time of day at which the clock stood at zero. -/
  epoch : Int := 0
  /-- The room that the stack has for deep copies. -/
  copyRoom : CopyRoom := .standard
  state : EditorState := {}
  misfits : Misfits := {}
  /-- The states to go back to, the newest first. -/
  past : List EditorState := []
  /-- The states to go forward to, the next one first. -/
  future : List EditorState := []
  /-- Whether an undo or a redo happened a short time ago. -/
  applying : Bool := false
  applyingTimer : Timer := {}
  /-- Whether the recorder watches the graph. -/
  watching : Bool := true
  /-- What the recorder saw last. -/
  signals : Signals := {}
  /-- Whether an action is going on that is recorded as one entry. -/
  inAction : Bool := false
  recordingTimer : Timer := {}
  /-- Whether changes are saved by themselves. -/
  autosaving : Bool := false
  /-- What the autosave to come will write. -/
  unsaved : Option Export := none
  savingTimer : Timer := {}
  clock : Clock TimerName := {}
  files : Files := {}
  /-- The trace of the last run. -/
  trace : List TraceEntry := []
  /-- How many node ids were given out. -/
  serial : Nat := 0
  /-- Everything that was announced, the oldest first. -/
  announced : List Change := []

/-- An editor after an operation, and the operation's answer. -/
structure Outcome (α : Type) where
  editor : Editor
  answer : Except EditorFailure α

namespace Outcome

variable {α β : Type}

/-- Goes on with the answer, if there is one. -/
def andThen (o : Outcome α) (next : Editor → α → Outcome β) : Outcome β :=
  match o.answer with
  | .ok a => next o.editor a
  | .error e => ⟨o.editor, .error e⟩

/-- Gives another answer. -/
def answering (o : Outcome α) (b : β) : Outcome β :=
  ⟨o.editor, o.answer.map fun _ => b⟩

end Outcome

namespace Editor

/-- An operation that leaves an editor behind and answers. -/
def done {α : Type} (e : Editor) (a : α) : Outcome α :=
  ⟨e, .ok a⟩

/-- An operation that fails. -/
def fail {α : Type} (e : Editor) (f : EditorFailure) : Outcome α :=
  ⟨e, .error f⟩

/-- The outcome of a reading. -/
def read {α β : Type} (e : Editor) (model : String) (r : Reading α) (next : α → Outcome β) :
    Outcome β :=
  match r with
  | .ok a => next a
  | .failed issues => e.fail (.invalid model issues)

/-- The state of an editor, for which its misfits are read. -/
def present (e : Editor) : Reading EditorState :=
  (fun selected executing => { e.state with selected := selected, executing := executing })
    <$> ((e.misfits.selected.map fun v =>
        (Reading.nullable Reading.text (.ofValue v)).within (.name "selected_node_id")).getD
      (.ok e.state.selected))
    <*> ((e.misfits.executing.map fun v =>
        (Reading.boolean (.ofValue v)).within (.name "is_executing")).getD
      (.ok e.state.executing))

/-- Without misfits the state is read as it is. -/
theorem present_of_misfits {e : Editor} (h : e.misfits = {}) : e.present = .ok e.state := by
  simp only [present, h]
  rfl

/-- A deep copy of the state of an editor, as history keeps it. -/
def snapshot (e : Editor) : Except EditorFailure EditorState :=
  match e.present with
  | .failed issues => .error (.invalid "WorkflowState" issues)
  | .ok s => if s.IsCopyable e.copyRoom then .ok s else .error .tooDeep

/-- The time of day. -/
def time (e : Editor) : Int :=
  e.epoch + e.clock.now

/-- The timer of the given name. -/
def timer (e : Editor) : TimerName → Timer
  | .applying => e.applyingTimer
  | .recording => e.recordingTimer
  | .saving => e.savingTimer

/-- The editor with another timer in place of the one of the given name. -/
def setTimer (e : Editor) (name : TimerName) (t : Timer) : Editor :=
  match name with
  | .applying => { e with applyingTimer := t }
  | .recording => { e with recordingTimer := t }
  | .saving => { e with savingTimer := t }

/-- The delay of a timer. -/
def delay (e : Editor) : TimerName → Delay
  | .applying => .ofSeconds e.config.history.applyDelay
  | .recording => .ofSeconds e.config.history.recordDebounce
  | .saving => .ofSeconds e.config.storage.autosaveDelay

/-- Cancels a timer. -/
def cancelTimer (e : Editor) (name : TimerName) : Editor :=
  { e.setTimer name (e.timer name).cancel with
    clock := e.clock.withdraw name (e.timer name).generation }

/-- Starts a timer anew. -/
def startTimer (e : Editor) (name : TimerName) : Editor :=
  let t := (e.timer name).start
  { (e.cancelTimer name).setTimer name t with
    clock := (e.cancelTimer name).clock.schedule (e.delay name) name t.generation }

/-- The workflow as it would be saved now. -/
def exported (e : Editor) : Export :=
  ⟨e.state.graph, exportVersion, e.time⟩

end Editor

end Workflow
