import Workflow.Proofs.Editor.Failing
import Workflow.Proofs.Graph.Saved
import Workflow.Proofs.Storage.Writing

/-!
# Loading what was saved

A workflow that a file can hold is loaded as it was saved: the editor that loads it has the very
graph of the editor that saved it.
-/

namespace Workflow

namespace Editor

variable {e x : Editor} {w : Export}

/-! ### The editor's file -/

/-- What is stored depends on the bytes of the editor's file. -/
lemma stored_of_find? {content : ByteArray}
    (hfile : x.files.find? x.config.storage.path = some (.file content)) :
    x.stored = ((Text.decodeUtf8 content).mapError .undecodable).map fun text =>
      (Reading.ofText (Export.read x.time) (Text.ofChars text.toList)).toExcept.toOption := by
  rw [Files.find?] at hfile
  rw [stored]
  cases hloc : x.files.locate x.config.storage.path with
  | error fault =>
    rw [hloc] at hfile
    cases hfile
  | ok loc =>
    rw [hloc] at hfile
    dsimp only at hfile ⊢
    rw [hfile]
    dsimp only
    cases Text.decodeUtf8 content with
    | error reason => rfl
    | ok text =>
      dsimp only [Except.mapError, Except.map]
      cases Reading.ofText (Export.read x.time) (Text.ofChars text.toList) <;> rfl

/-- A workflow that a file can hold is found in the file that it was written to. -/
lemma stored_of_file (hfits : w.toValue.Fits 200)
    (hfile : x.files.find? x.config.storage.path
      = some (.file (Text.toUtf8 (Json.write .file w.toValue)))) :
    x.stored = .ok (some w) := by
  obtain ⟨text, hdecoded, hread⟩ := Json.read_bytes hfits
  have hexport : Reading.ofText (Export.read x.time) (Text.ofChars text.toList) = .ok w := by
    rw [Reading.ofText, hread]
    exact Export.read_toValue (Export.isSound_of_fits hfits) x.time
  rw [stored_of_find? hfile, hdecoded]
  dsimp only [Except.mapError, Except.map]
  rw [hexport]
  rfl

/-- What an editor saved is stored for every editor that has the file at its path. -/
lemma stored_of_save (hsaved : e.save.answer = .ok true) (hfits : e.exported.toValue.Fits 200)
    (hpath : x.config.storage.path = e.config.storage.path)
    (hfiles : x.files = e.save.editor.files) : x.stored = .ok (some e.exported) := by
  obtain ⟨text, htext, hfile⟩ := exists_of_write hsaved
  obtain rfl : Json.write .file e.exported.toValue = text := by
    rw [Export.fileText_of_fits hfits (by decide)] at htext
    exact Except.ok.inj htext
  apply stored_of_file hfits
  rw [hpath, hfiles]
  exact hfile

/-! ### Loading -/

/-- An editor with a graph and nothing else: no history, no action, and no recording to come. -/
structure IsBare (e : Editor) (g : Graph) : Prop where
  state : e.state = { graph := g }
  misfits : e.misfits = {}
  past : e.past = []
  inAction : e.inAction = false
  pending : e.recordingTimer.pending = false

/-- A stored workflow that the recorder can see becomes the first entry of a history of its own. -/
lemma exists_load_of_stored (hstored : x.stored = .ok (some w)) (hvisible : w.graph.IsVisible) :
    ∃ bare : Editor, x.load = (bare.push { graph := w.graph }).done true ∧ bare.IsBare w.graph ∧
      bare.config = x.config := by
  let imported : Outcome Unit := x.beginAction.importExport w
  have hanswer : imported.answer = .ok () := by
    let y : Editor := { x.beginAction with state := { graph := w.graph }, misfits := {} }
    have hannounced : (y.announce .state).Succeeds :=
      (announce_succeeds_iff .state).2 fun _ => hvisible
    obtain ⟨_, hanswer⟩ := hannounced
    exact hanswer
  have hstill : imported.editor.still
      = { x.beginAction with state := { graph := w.graph }, misfits := {} }.still :=
    still_replaceState _ _
  -- the history was cleared, so that there is nothing to compare the state to
  let bare : Editor :=
    { imported.editor.clearHistory with inAction := false }.cancelTimer .recording
  have hbare : bare.IsBare w.graph :=
    ⟨(congrArg Editor.state hstill :), (congrArg Editor.misfits hstill :), rfl, rfl, rfl⟩
  have hended : imported.editor.clearHistory.endAction = (bare.push bare.state).done true := by
    have hcopyable : bare.state.IsCopyable bare.copyRoom :=
      EditorState.isCopyable_of_isVisible (by rw [hbare.state]; exact hvisible) _
    have hsnapshot : bare.snapshot = .ok bare.state :=
      (snapshot_of_misfits hbare.misfits).trans (if_pos hcopyable)
    change bare.recordState false = _
    rw [recordState, withSnapshot_of_ok hsnapshot]
    rfl
  have hload : x.load = imported.editor.clearHistory.endAction.answering true := by
    rw [load, hstored]
    exact Outcome.andThen_of_ok hanswer _
  refine ⟨bare, ?_, hbare, (congrArg Editor.config hstill :)⟩
  rw [hload, hended, hbare.state]
  rfl

/-- A stored workflow that the recorder could see takes the place of the editor's graph. -/
lemma load_of_stored (hstored : x.stored = .ok (some w)) (hvisible : w.graph.IsVisible) :
    x.load.answer = .ok true ∧ x.load.editor.state = { graph := w.graph } := by
  obtain ⟨bare, hload, hbare, -⟩ := exists_load_of_stored hstored hvisible
  rw [hload]
  exact ⟨rfl, hbare.state⟩

/-- An editor with a file of its own, in which a start and an end node are joined. -/
def drawn : Editor :=
  (new { storage := { path := ⟨"", ["w.json"]⟩ } } false 0).performAll
    [.addNode (.str "start") (.object [(.text "x", .float 0.5)])
        (.object [(.text "label", .str "a"), (.text "more", .list [.int 1, .float 1, .null])]),
      .addNode (.str "end") .null .null,
      .addEdge "start-0-000000001" "end-0-000000002"]

lemma save_drawn : drawn.save.answer = .ok true := by
  obtain ⟨text, htext⟩ : ∃ text, drawn.exported.fileText = .ok text := ⟨_, rfl⟩
  have hsound : FilePath.fault? ⟨"", ["w.json"]⟩ = none :=
    FilePath.fault?_name (by decide +kernel) (by decide +kernel)
  have hfree : drawn.files.entry? (drawn.files.working ++ ["w.json"]) ≠ some .directory := by
    intro h
    cases h
  rw [save, write_here rfl hsound (by decide +kernel) (by decide) hfree htext]
  rfl

end Editor

end Workflow
