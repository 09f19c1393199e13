import Workflow.Editor.Basic

/-!
# History

After every change the editor's own parts react: the recorder awaits the end of a burst of edits,
and the autosaver the next quiet moment. History itself is two stacks of states; recording pushes
the present one unless nothing changed, and undo and redo move along them.
-/

namespace Workflow.Editor

/-- Awaits the end of a burst of edits, unless an action is going on. -/
def scheduleRecording (e : Editor) : Editor :=
  if e.inAction then e else e.startTimer .recording

/--
The recorder's reaction to a change. A change that does not show in the signals is none to it; one
that an undo or a redo made calls off what was to be recorded, as history holds it already.
-/
def recorderReacts (e : Editor) : Outcome Unit :=
  if !e.watching then e.done ()
  else
    match e.state.graph.signals with
    | .error reason => e.fail (.noFingerprint (.unfit reason))
    | .ok signals =>
      if signals = e.signals then e.done ()
      else
        let e := { e with signals := signals }
        (if e.applying then e.cancelTimer .recording else e.scheduleRecording).done ()

/-- The autosaver's reaction to a change of the graph. -/
def autosaverReacts (e : Editor) (change : Change) : Editor :=
  if e.autosaving && (change = .nodes || change = .edges || change = .state) then
    { e with unsaved := some e.exported }.startTimer .saving
  else e

/-- Announces a change, to the editor's own parts first. -/
def announce (e : Editor) (change : Change) : Outcome Unit :=
  e.recorderReacts.andThen fun e _ =>
    { e.autosaverReacts change with announced := e.announced ++ [change] }.done ()

/-- Replaces the whole state. -/
def replaceState (e : Editor) (s : EditorState) : Outcome Unit :=
  { e with state := s, misfits := {} }.announce .state

/-- Goes on with a snapshot of the editor, if its state can be kept. -/
def withSnapshot {α : Type} (e : Editor) (next : EditorState → Outcome α) : Outcome α :=
  match e.snapshot with
  | .ok s => next s
  | .error failure => e.fail failure

/-- Pushes a state onto the past. The future is lost, and so is what exceeds the limit. -/
def push (e : Editor) (s : EditorState) : Editor :=
  let past := s :: e.past
  { e with
    past := if e.config.history.maxStates < past.length then past.dropLast else past
    future := [] }

/-- Whether the newest state of the past cannot be told from another one. -/
def unchanged (e : Editor) (s : EditorState) : Except FingerprintFault Bool :=
  match e.past with
  | [] => .ok false
  | newest :: _ => do
    let now ← s.fingerprint
    let before ← newest.fingerprint
    .ok (now = before)

/-- Records the present state, unless nothing changed; `force` records it anyway. -/
def recordState (e : Editor) (force : Bool) : Outcome Bool :=
  e.withSnapshot fun s =>
    if force then (e.push s).done true
    else
      match e.unchanged s with
      | .error reason => e.fail (.noFingerprint reason)
      | .ok true => e.done false
      | .ok false => (e.push s).done true

/-- Opens the window in which changes count as undo and redo. -/
def beginApplying (e : Editor) : Editor :=
  { e with applying := true }.startTimer .applying

/-- Goes back by one state, if there is one. -/
def undo (e : Editor) : Outcome Bool :=
  match e.past with
  | [] => e.done false
  | newest :: older =>
    let e := e.beginApplying
    e.withSnapshot fun s =>
      ({ e with past := older, future := s :: e.future }.replaceState newest).answering true

/-- Goes forward by one state, if there is one. -/
def redo (e : Editor) : Outcome Bool :=
  match e.future with
  | [] => e.done false
  | next :: later =>
    let e := e.beginApplying
    e.withSnapshot fun s =>
      ({ e with past := s :: e.past, future := later }.replaceState next).answering true

/-- Forgets past and future. -/
def clearHistory (e : Editor) : Editor :=
  { e with past := [], future := [] }

/-- Begins an action: nothing is recorded until it ends. -/
def beginAction (e : Editor) : Editor :=
  { e with inAction := true }

/-- Ends an action and records its result. -/
def endAction (e : Editor) : Outcome Bool :=
  ({ e with inAction := false }.cancelTimer .recording).recordState false

/-- Stops the recorder. -/
def stopRecorder (e : Editor) : Editor :=
  { e with watching := false }.cancelTimer .recording

end Workflow.Editor
