import Workflow.Proofs.Editor.Execution
import Workflow.Proofs.Editor.Failing

/-!
# Edits that fail

An edit that reads what it is handed over does so before it writes anything. So one that is refused
leaves everything as it was, but for the number that a new node would have had. An edit can also
fail once it is done, as the recorder cannot see the new graph. Then the edit is in place and not
announced.
-/

namespace Workflow

/-- Whether an operation failed because of what it was handed over. -/
def EditorFailure.IsRefusal : EditorFailure → Prop
  | invalid _ _ | unknownNodeType _ | notMapping _ => True
  | _ => False

namespace Outcome

end Outcome

namespace Editor

/-- An edit that reads what it is handed over. -/
inductive Edit where
  | addNode (type position data : Document)
  | addNodeOf (type position : Document) (payload : Payload)
  | updateNode (id : String) (changes : Document)
  | moveNode (id : String) (position : Document)
  | importWorkflow (d : Document)

/-- Attempts an edit, whose answer is only whether it succeeded. -/
def attempt (e : Editor) : Edit → Outcome Unit
  | .addNode type position data => (e.addNode type position data).answering ()
  | .addNodeOf type position payload => (e.addNodeOf type position payload).answering ()
  | .updateNode id changes => e.updateNode id changes
  | .moveNode id position => e.moveNode id position
  | .importWorkflow d => e.importWorkflow d

/-- An editor none of whose parts reacts to a change. -/
def unattended (e : Editor) : Editor :=
  { e with watching := false, autosaving := false }

/-- What can become of an edit, with what would become of it if nothing reacted. -/
inductive Attempted (e : Editor) : Outcome Unit → Outcome Unit → Prop where
  | refused (serial : Nat) {f : EditorFailure} (h : f.IsRefusal) :
      Attempted e ({ e with serial := serial }.fail f)
        ({ e.unattended with serial := serial }.fail f)
  /-- There is no node of the given id. -/
  | ignored : Attempted e (e.done ()) (e.unattended.done ())
  | announced (serial : Nat) (state : EditorState) (misfits : Misfits) (change : Change) :
      Attempted e ({ e with serial := serial, state := state, misfits := misfits }.announce change)
        ({ e.unattended with
          serial := serial, state := state, misfits := misfits }.announce change)

variable {e : Editor} {f : EditorFailure}

/-! ### What becomes of an edit -/

/-- What cannot be read is refused, whether anything would react or not. -/
lemma Attempted.read {α : Type} {model : String} {r : Reading α} {next nextAlone : α → Outcome Unit}
    (serial : Nat) (h : ∀ a, e.Attempted (next a) (nextAlone a)) :
    e.Attempted ({ e with serial := serial }.read model r next)
      ({ e.unattended with serial := serial }.read model r nextAlone) := by
  cases r with
  | ok a => exact h a
  | failed issues => exact .refused serial trivial

/-- A new start node is given something under a name of its own. -/
def given (d : Document) : Edit :=
  .addNode (.str "start") .null (.object [(.text "label", .str "a"), (.text "more", d)])

end Editor

end Workflow
