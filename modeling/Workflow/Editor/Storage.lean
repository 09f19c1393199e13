import Workflow.Editor.History
import Workflow.Graph.Reading

/-!
# Saving and loading

An editor saves its workflow to one file and loads it from there. That a file cannot be written or
read as a workflow is mostly not a failure but an answer. A loaded workflow begins a history of its
own.
-/

namespace Workflow.Editor

/-- What comes of a path at which nothing can be done: a NUL in it fails, all else is an answer. -/
def refused (e : Editor) (fault : PathFault) : Outcome Bool :=
  if fault = .nul then e.fail (.badPath e.config.storage.path fault) else e.done false

/-- Writes a workflow to the editor's file and answers whether that was possible. -/
def write (e : Editor) (w : Export) : Outcome Bool :=
  let path := e.config.storage.path
  match e.files.makeDirectory path.parent true with
  | (files, some (_, fault)) => { e with files := files }.refused fault
  | (files, none) =>
    let e := { e with files := files }
    match w.fileText with
    | .error reason => e.fail (.unfit reason)
    | .ok text =>
      match files.writeThere path (Text.toUtf8 text) with
      | .error fault => e.refused fault
      | .ok files => { e with files := files }.done true

/-- Saves the workflow. -/
def save (e : Editor) : Outcome Bool :=
  e.write e.exported

/-- Writes what the autosave was to write. -/
def flush (e : Editor) : Outcome Unit :=
  match e.unsaved with
  | some w => ({ e with unsaved := none }.write w).answering ()
  | none => e.done ()

/-- Calls off the autosave. -/
def cancelAutosave (e : Editor) : Editor :=
  { e.cancelTimer .saving with unsaved := none }

/-- Removes the editor's file and answers whether that was possible. -/
def clearStorage (e : Editor) : Outcome Bool :=
  match e.files.remove e.config.storage.path with
  | .ok files => { e with files := files }.done true
  | .error fault => e.refused fault

/--
The workflow in the editor's file, if it holds one. A path that is too long is a failure unless it
leads through something that is missing or no directory.
-/
def stored (e : Editor) : Except EditorFailure (Option Export) :=
  match e.files.locate e.config.storage.path with
  | .error .tooLong => .error (.badPath e.config.storage.path .tooLong)
  | .error _ => .ok none
  | .ok loc =>
    match e.files.entry? loc with
    | some (.file content) =>
      match Text.decodeUtf8 content with
      | .error reason => .error (.undecodable reason)
      | .ok text =>
        match Reading.ofText (Export.read e.time) (Text.ofChars text.toList) with
        | .ok w => .ok (some w)
        | .failed _ => .ok none
    | _ => .ok none

/-- Replaces the graph by that of a saved workflow; selection and executing flag are reset. -/
def importExport (e : Editor) (w : Export) : Outcome Unit :=
  e.replaceState { graph := w.graph }

/-- Loads the workflow from the editor's file and makes it the first entry of a new history. -/
def load (e : Editor) : Outcome Bool :=
  match e.stored with
  | .error failure => e.fail failure
  | .ok none => e.done false
  | .ok (some w) =>
    (e.beginAction.importExport w).andThen fun e _ => e.clearHistory.endAction.answering true

/-- Closes the editor: nothing is recorded or saved by itself any more. -/
def close (e : Editor) : Editor :=
  { e.stopRecorder with autosaving := false }.cancelAutosave

end Workflow.Editor
