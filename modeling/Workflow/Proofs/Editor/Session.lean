import Workflow.Editor.Argument
import Workflow.Proofs.Editor.Reaction
import Workflow.Proofs.Graph.Members

/-!
# Sessions

A session is an editor that was opened and then used in any way: everything that can be done with
it, in any order, whether it succeeds or fails, with time passing in between and with its files
changed by others.
-/

namespace Workflow

/-- What can be done with an editor, and what can happen around it. -/
inductive Editor.Operation where
  | addNode (type position data : Document)
  | updateNode (id : String) (changes : Document)
  | moveNode (id : String) (position : Document)
  | deleteNode (id : Value)
  | addEdge (source target : String)
  | removeEdge (id : Value)
  | select (id : Value)
  | setExecuting (value : Value)
  | replaceState (s : EditorState)
  | importWorkflow (d : Document)
  | importExport (w : Export)
  | clear
  | record (force : Bool)
  | undo
  | redo
  | clearHistory
  | beginAction
  | endAction
  | scheduleRecording
  | stopRecorder
  | execute
  | save
  | load
  | close
  | clearStorage
  | cancelAutosave
  /-- The clock is advanced by some milliseconds. -/
  | advance (span : Nat)
  /-- Someone else changes the files. -/
  | changeFiles (files : Files)

namespace Editor

/-- The editor after an operation, be its answer what it may. -/
def perform (e : Editor) : Operation → Editor
  | .addNode type position data => (e.addNode type position data).editor
  | .updateNode id changes => (e.updateNode id changes).editor
  | .moveNode id position => (e.moveNode id position).editor
  | .deleteNode id => (e.deleteGiven id).editor
  | .addEdge source target => (e.addEdge source target).editor
  | .removeEdge id => (e.removeEdgeGiven id).editor
  | .select id => (e.selectGiven id).editor
  | .setExecuting value => (e.setExecutingGiven value).editor
  | .replaceState s => (e.replaceState s).editor
  | .importWorkflow d => (e.importWorkflow d).editor
  | .importExport w => (e.importExport w).editor
  | .clear => e.clear.editor
  | .record force => (e.recordState force).editor
  | .undo => e.undo.editor
  | .redo => e.redo.editor
  | .clearHistory => e.clearHistory
  | .beginAction => e.beginAction
  | .endAction => e.endAction.editor
  | .scheduleRecording => e.scheduleRecording
  | .stopRecorder => e.stopRecorder
  | .execute => e.execute.editor
  | .save => e.save.editor
  | .load => e.load.editor
  | .close => e.close
  | .clearStorage => e.clearStorage.editor
  | .cancelAutosave => e.cancelAutosave
  | .advance span => (e.advance span).editor
  | .changeFiles files => { e with files := files }

/-- The editors that a session can come to. -/
inductive Reachable : Editor → Prop where
  | opened (config : Config) (autosaving : Bool) (epoch : Int) (files : Files) (room : CopyRoom) :
      Reachable { new config autosaving epoch with files := files, copyRoom := room }
  | after {e : Editor} (h : Reachable e) (op : Operation) : Reachable (e.perform op)

/-! ### Edits -/

/-- Whether an operation changes the state of an editor in one go, rather than in several or not. -/
def Operation.IsEdit : Operation → Prop
  | addNode .. | updateNode .. | moveNode .. | deleteNode .. | addEdge .. | removeEdge ..
  | select .. | setExecuting .. | replaceState .. | importWorkflow .. | importExport ..
  | clear => True
  | _ => False

/-- The new state and misfits of an editor to which an edit does something. -/
inductive Step (e : Editor) : Operation → EditorState → Misfits → Prop where
  | addNode {type : Document} (position : Document) {data : Document} {t : NodeType} {p : Position}
      {n : Node} (ht : NodeType.ofDocument? type = some t)
      (hn : newNode (e.nextId t) t p data = .ok n) :
      Step e (.addNode type position data)
        { e.state with graph := e.state.graph.addNode n } e.misfits
  | updateNode {id : String} {changes : Members} {n : Node} {p : Payload}
      (hn : e.state.graph.find? id = some n) (hp : n.payload.update changes = .ok p) :
      Step e (.updateNode id (.object changes))
        { e.state with graph := e.state.graph.changeNode id fun n => { n with payload := p } }
        e.misfits
  | moveNode (id : String) (position : Document) (p : Position) :
      Step e (.moveNode id position)
        { e.state with graph := e.state.graph.changeNode id fun n => { n with position := p } }
        e.misfits
  | deleteNode (id : String) :
      Step e (.deleteNode (.str id))
        { e.state with
          graph := e.state.graph.deleteNode id
          selected := if e.state.selected = some id then none else e.state.selected } e.misfits
  /-- What is the id of nothing may be what is selected. -/
  | deselect (v : Value) :
      Step e (.deleteNode v) { e.state with selected := none }
        { e.misfits with selected := none }
  | deleteNothing (v : Value) : Step e (.deleteNode v) e.state e.misfits
  | addEdge {source target : String} (h : e.state.graph.admits source target = true) :
      Step e (.addEdge source target)
        { e.state with graph := e.state.graph.addEdge (.between source target) } e.misfits
  | removeEdge (id : String) :
      Step e (.removeEdge (.str id))
        { e.state with graph := e.state.graph.removeEdge id } e.misfits
  | removeNothing (v : Value) : Step e (.removeEdge v) e.state e.misfits
  | select (id : Option String) :
      Step e (.select (.ofText? id)) { e.state with selected := id }
        { e.misfits with selected := none }
  | selectMisfit {v : Value} (h : ∀ id, v ≠ .ofText? id) :
      Step e (.select v) e.state { e.misfits with selected := some v }
  | setExecuting (value : Bool) :
      Step e (.setExecuting (.bool value)) { e.state with executing := value }
        { e.misfits with executing := none }
  | setMisfit {v : Value} (h : ∀ value, v ≠ .bool value) :
      Step e (.setExecuting v) e.state { e.misfits with executing := some v }
  | replaceState (s : EditorState) : Step e (.replaceState s) s {}
  | importWorkflow {d : Document} {w : Export} (hw : Export.read e.time d = .ok w) :
      Step e (.importWorkflow d) { graph := w.graph } {}
  | importExport (w : Export) : Step e (.importExport w) { graph := w.graph } {}
  | clear : Step e .clear {} {}

/-- An edit leaves an editor alone but for its serial number, or takes a step and says so. -/
inductive Edited (e : Editor) (op : Operation) : Editor → Prop where
  | kept (serial : Nat) : Edited e op { e with serial := serial }
  | announced (serial : Nat) {state : EditorState} {misfits : Misfits}
      (h : e.Step op state misfits) (change : Change) :
      Edited e op
        ({ e with serial := serial, state := state, misfits := misfits }.announce change).editor

variable {e : Editor}

/--
A new node has the id it was asked for with. Its payload is the standard one of its type, or is read
from what was given.
-/
lemma of_newNode_eq_ok {id : String} {t : NodeType} {position : Position} {data : Document}
    {n : Node} (h : newNode id t position data = .ok n) :
    n.id = id ∧ (n.payload = Payload.standard t ∨
      (∃ members, data = .object members ∧ Payload.readMembers members t = .ok n.payload) ∨
      Payload.readAny data = .ok n.payload) := by
  unfold newNode at h
  split at h
  · obtain rfl := Reading.ok.inj h
    exact ⟨rfl, .inl rfl⟩
  · next members =>
    obtain ⟨p, hp, rfl⟩ := Reading.map_eq_ok_iff.1 h
    exact ⟨rfl, .inr (.inl ⟨members, rfl, hp⟩)⟩
  · cases hread : (Payload.readAny data).within (.name "data") with
    | failed issues => rw [hread] at h; cases h
    | ok p =>
      rw [hread, Reading.andThen, Node.join] at h
      split_ifs at h
      · obtain rfl := Reading.ok.inj h
        exact ⟨rfl, .inr (.inr (Reading.within_eq_ok_iff.1 hread))⟩
      · cases h

lemma edited_addNode (type position data : Document) :
    e.Edited (.addNode type position data) (e.addNode type position data).editor := by
  rw [addNode, addNodeBy]
  split
  · exact .kept e.serial
  · next t ht =>
    refine read_editor (P := e.Edited _) (.kept _) fun position => ?_
    cases hn : newNode (e.nextId t) t position data with
    | failed issues => exact .kept _
    | ok n => exact .announced _ (.addNode _ ht hn) _

lemma edited_updateNode (id : String) (changes : Document) :
    e.Edited (.updateNode id changes) (e.updateNode id changes).editor := by
  rw [updateNode]
  split
  · exact .kept e.serial
  · next n hn =>
    split
    · next members =>
      cases hp : n.payload.update members with
      | failed issues => exact .kept e.serial
      | ok p => exact .announced _ (.updateNode hn hp) _
    · exact .kept e.serial

lemma edited_moveNode (id : String) (position : Document) :
    e.Edited (.moveNode id position) (e.moveNode id position).editor := by
  rw [moveNode]
  split
  · exact .kept e.serial
  · exact read_editor (P := e.Edited _) (.kept e.serial) fun p =>
      .announced _ (.moveNode id position p) _

lemma edited_deleteGiven (v : Value) : e.Edited (.deleteNode v) (e.deleteGiven v).editor := by
  unfold deleteGiven
  split
  · exact .announced _ (.deleteNode _) _
  · split_ifs
    · exact .announced _ (.deselect v) _
    · exact .announced e.serial (.deleteNothing v) _

lemma edited_addEdge (source target : String) :
    e.Edited (.addEdge source target) (e.addEdge source target).editor := by
  rw [addEdge]
  split_ifs with hadmits
  · exact .announced _ (.addEdge hadmits) _
  · exact .kept e.serial

lemma edited_removeEdgeGiven (v : Value) :
    e.Edited (.removeEdge v) (e.removeEdgeGiven v).editor := by
  unfold removeEdgeGiven
  split
  · exact .announced _ (.removeEdge _) _
  · exact .announced e.serial (.removeNothing v) _

lemma edited_selectGiven (v : Value) : e.Edited (.select v) (e.selectGiven v).editor := by
  unfold selectGiven
  split
  · exact .announced _ (.select (some _)) _
  · exact .announced _ (.select none) _
  · next hstr hnull =>
    refine .announced _ (.selectMisfit fun id => ?_) _
    cases id with
    | none => exact hnull
    | some id => exact hstr id

lemma edited_setExecuting (value : Bool) :
    e.Edited (.setExecuting (.bool value)) (e.setExecuting value).editor :=
  .announced _ (.setExecuting value) _

lemma edited_setExecutingGiven (v : Value) :
    e.Edited (.setExecuting v) (e.setExecutingGiven v).editor := by
  unfold setExecutingGiven
  split
  · exact edited_setExecuting _
  · next hbool => exact .announced _ (.setMisfit hbool) _

lemma edited_replaceState (s : EditorState) :
    e.Edited (.replaceState s) (e.replaceState s).editor :=
  .announced _ (.replaceState s) _

lemma edited_importWorkflow (d : Document) :
    e.Edited (.importWorkflow d) (e.importWorkflow d).editor := by
  rw [importWorkflow]
  cases hw : Export.read e.time d with
  | failed issues => exact .kept e.serial
  | ok w => exact .announced _ (.importWorkflow hw) _

/-- Every edit takes a step or none. -/
lemma edited_perform {op : Operation} (h : op.IsEdit) : e.Edited op (e.perform op) := by
  cases op with
  | addNode type position data => exact edited_addNode type position data
  | updateNode id changes => exact edited_updateNode id changes
  | moveNode id position => exact edited_moveNode id position
  | deleteNode v => exact edited_deleteGiven v
  | addEdge source target => exact edited_addEdge source target
  | removeEdge v => exact edited_removeEdgeGiven v
  | select v => exact edited_selectGiven v
  | setExecuting v => exact edited_setExecutingGiven v
  | replaceState s => exact edited_replaceState s
  | importWorkflow d => exact edited_importWorkflow d
  | importExport w => exact .announced _ (.importExport w) _
  | clear => exact .announced _ .clear _
  | _ => exact h.elim

end Editor

end Workflow
