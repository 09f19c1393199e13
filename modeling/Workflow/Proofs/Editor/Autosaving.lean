import Workflow.Proofs.Editor.Failing
import Workflow.Proofs.Storage.Writing

/-!
# No change is lost

An autosaver that is told of a change of the graph awaits a quiet moment and then writes the graph
as it was announced last. So as long as it is told of every change, the newest graph is either still
to be written or stands in the file. The recorder reacts first: what it cannot see, the autosaver is
not told of.
-/

namespace Workflow

/-- Whether the autosaver watches for a change. -/
def Change.isWatched : Change → Bool
  | nodes | edges | state => true
  | selection | executing => false

namespace Editor

/-! ### What autosaving is about -/

/-- The changes of its graph that an editor announced. -/
def notices (e : Editor) : List Change :=
  e.announced.filter Change.isWatched

/-- An editor with no more than what autosaving is about. -/
def saver (e : Editor) : Editor where
  config := e.config
  state := { graph := e.state.graph }
  autosaving := e.autosaving
  unsaved := e.unsaved
  savingTimer := e.savingTimer
  files := e.files
  announced := e.notices

/-- Whether an autosave is to come that will write the graph. -/
def IsAwaited (e : Editor) : Prop :=
  e.savingTimer.pending = true ∧ ∃ time, e.unsaved = some ⟨e.state.graph, exportVersion, time⟩

/-- Whether the editor's file holds the graph. -/
def IsSaved (e : Editor) : Prop :=
  ∃ time text, (⟨e.state.graph, exportVersion, time⟩ : Export).fileText = .ok text ∧
    e.files.find? e.config.storage.path = some (.file (Text.toUtf8 text))

variable {e x y : Editor} {change : Change}

lemma IsAwaited.of_saver (heq : x.saver = e.saver) (h : e.IsAwaited) : x.IsAwaited := by
  have hgraph : x.state.graph = e.state.graph := (congrArg (fun s => s.state.graph) heq :)
  have htimer : x.savingTimer = e.savingTimer := (congrArg Editor.savingTimer heq :)
  have hunsaved : x.unsaved = e.unsaved := (congrArg Editor.unsaved heq :)
  rwa [IsAwaited, hgraph, htimer, hunsaved]

lemma IsSaved.of_saver (heq : x.saver = e.saver) (h : e.IsSaved) : x.IsSaved := by
  have hgraph : x.state.graph = e.state.graph := (congrArg (fun s => s.state.graph) heq :)
  have hfiles : x.files = e.files := (congrArg Editor.files heq :)
  have hconfig : x.config = e.config := (congrArg Editor.config heq :)
  rwa [IsSaved, hgraph, hfiles, hconfig]

/-! ### What does not concern it -/

lemma saver_startTimer {name : TimerName} (hname : name ≠ .saving) :
    (e.startTimer name).saver = e.saver := by
  cases name <;> first | rfl | exact absurd rfl hname

lemma saver_scheduleRecording (e : Editor) : e.scheduleRecording.saver = e.saver := by
  rw [scheduleRecording]
  split_ifs
  · rfl
  · exact saver_startTimer (by decide)

lemma saver_recorderReacts (e : Editor) : e.recorderReacts.editor.saver = e.saver := by
  rw [recorderReacts]
  split_ifs
  · rfl
  · cases e.state.graph.signals with
    | error reason => rfl
    | ok signals =>
      dsimp only
      split_ifs
      · rfl
      · rfl
      · exact saver_scheduleRecording _

lemma saver_recordState (e : Editor) (force : Bool) :
    (e.recordState force).editor.saver = e.saver := by
  obtain ⟨past, future, hrecorded⟩ := exists_recordState_editor e force
  rw [hrecorded]
  rfl

lemma saver_endAction (e : Editor) : e.endAction.editor.saver = e.saver :=
  saver_recordState _ false

/-! ### Announcements -/

lemma watching_announce (e : Editor) (change : Change) :
    (e.announce change).editor.watching = e.watching :=
  (congrArg Editor.watching (still_announce e change) :)

lemma graph_of_announced (h : x.saver = (y.announce change).editor.saver) :
    x.state.graph = y.state.graph := by
  have hannounced : x.state.graph = (y.announce change).editor.state.graph :=
    (congrArg (fun s => s.state.graph) h :)
  rw [hannounced]
  exact (congrArg (fun s => s.state.graph) (still_announce y change) :)

/-- A change that is not watched for does not concern the autosaver. -/
lemma saver_announce_of_unwatched (h : change.isWatched = false) :
    (e.announce change).editor.saver = e.saver := by
  have hreacts : ∀ x : Editor, x.autosaverReacts change = x := by
    intro x
    cases change with
    | selection | executing => simp [autosaverReacts]
    | nodes | edges | state => cases h
  refine Outcome.andThen_editor (P := fun x => x.saver = e.saver) (saver_recorderReacts e) ?_
  intro _
  rw [hreacts]
  refine Eq.trans ?_ (saver_recorderReacts e)
  simp [saver, notices, done, h]

/-- Nor does a change at which the recorder fails. -/
lemma saver_announce_of_fails (h : ¬e.recorderReacts.Succeeds) :
    (e.announce change).editor.saver = e.saver := by
  cases hanswer : e.recorderReacts.answer with
  | ok a => exact absurd ⟨a, hanswer⟩ h
  | error f =>
    rw [announce, Outcome.andThen_of_error hanswer]
    exact saver_recorderReacts e

/-- An editor whose graph is what the autosave to come will write. -/
def prepared (e : Editor) : Editor :=
  { e with unsaved := some e.exported }

lemma autosaverReacts_of_watched (hauto : e.autosaving = true)
    (hwatched : change.isWatched = true) :
    e.autosaverReacts change = e.prepared.startTimer .saving := by
  cases change with
  | nodes | edges | state => simp [autosaverReacts, hauto, prepared]
  | selection | executing => cases hwatched

/-- A change that is watched for, and that the recorder can take, is awaited from then on. -/
lemma isAwaited_announce (hauto : e.autosaving = true) (hwatched : change.isWatched = true)
    (hrecorder : e.recorderReacts.Succeeds) : (e.announce change).editor.IsAwaited := by
  obtain ⟨_, hanswer⟩ := hrecorder
  have hauto' : e.recorderReacts.editor.autosaving = e.autosaving :=
    (congrArg Editor.autosaving (saver_recorderReacts e) :)
  rw [announce, Outcome.andThen_of_ok hanswer,
    autosaverReacts_of_watched (hauto'.trans hauto) hwatched]
  exact ⟨rfl, _, rfl⟩

/-- A change that is watched for and was announced is awaited from then on. -/
lemma isAwaited_of_notices (hauto : e.autosaving = true) (hwatched : change.isWatched = true)
    (h : (e.announce change).editor.notices ≠ e.notices) :
    (e.announce change).editor.IsAwaited := by
  by_cases hrecorder : e.recorderReacts.Succeeds
  · exact isAwaited_announce hauto hwatched hrecorder
  · exact absurd (congrArg Editor.announced (saver_announce_of_fails hrecorder) :) h

/-! ### Operations -/

/--
What an operation does of which the autosaver is to hear: nothing, or the graph is changed and the
change announced.
-/
inductive Heeds (e : Editor) : Editor → Prop where
  | calm {x : Editor} (h : x.saver = e.saver) : Heeds e x
  | changed {x y : Editor} {change : Change} (hwatched : change.isWatched = true)
      (hy : y.saver = { e.saver with state := y.saver.state })
      (hx : x.saver = (y.announce change).editor.saver) (hwatching : x.watching = y.watching) :
      Heeds e x

/-- Whether an operation writes no file, and does not stop what is to be written. -/
def Operation.SparesSaving : Operation → Prop
  | save | close | clearStorage | cancelAutosave | advance _ | changeFiles _ => False
  | _ => True

lemma Heeds.trans_calm (h : e.Heeds x) (hsaver : y.saver = x.saver)
    (hwatching : y.watching = x.watching) : e.Heeds y := by
  cases h with
  | calm h => exact .calm (hsaver.trans h)
  | changed hwatched hy hx hwatching' =>
    exact .changed hwatched hy (hsaver.trans hx) (hwatching.trans hwatching')

lemma heeds_announce (hwatched : change.isWatched = true)
    (hy : y.saver = { e.saver with state := y.saver.state }) :
    e.Heeds (y.announce change).editor :=
  .changed hwatched hy rfl (watching_announce y change)

lemma heeds_addNode (type position data : Document) :
    e.Heeds (e.addNode type position data).editor := by
  rw [addNode, addNodeBy]
  split
  · exact .calm rfl
  · exact read_editor (P := e.Heeds) (.calm rfl) fun position =>
      read_editor (P := e.Heeds) (.calm rfl) fun n => heeds_announce rfl rfl

lemma heeds_updateNode (id : String) (changes : Document) :
    e.Heeds (e.updateNode id changes).editor := by
  rw [updateNode]
  split
  · exact .calm rfl
  · split
    · exact read_editor (P := e.Heeds) (.calm rfl) fun p => heeds_announce rfl rfl
    · exact .calm rfl

lemma heeds_moveNode (id : String) (position : Document) :
    e.Heeds (e.moveNode id position).editor := by
  rw [moveNode]
  split
  · exact .calm rfl
  · exact read_editor (P := e.Heeds) (.calm rfl) fun p => heeds_announce rfl rfl

lemma heeds_deleteGiven (v : Value) : e.Heeds (e.deleteGiven v).editor := by
  unfold deleteGiven
  split
  · exact heeds_announce rfl rfl
  · split_ifs <;> exact heeds_announce rfl rfl

lemma heeds_addEdge (source target : String) : e.Heeds (e.addEdge source target).editor := by
  rw [addEdge]
  split_ifs
  · exact heeds_announce rfl rfl
  · exact .calm rfl

lemma heeds_removeEdgeGiven (v : Value) : e.Heeds (e.removeEdgeGiven v).editor := by
  unfold removeEdgeGiven
  split <;> exact heeds_announce rfl rfl

lemma heeds_selectGiven (v : Value) : e.Heeds (e.selectGiven v).editor := by
  unfold selectGiven
  split <;> exact .calm (saver_announce_of_unwatched rfl)

lemma saver_setExecuting (e : Editor) (value : Bool) :
    (e.setExecuting value).editor.saver = e.saver :=
  saver_announce_of_unwatched rfl

lemma heeds_setExecutingGiven (v : Value) : e.Heeds (e.setExecutingGiven v).editor := by
  unfold setExecutingGiven
  split <;> exact .calm (saver_announce_of_unwatched rfl)

lemma heeds_replaceState (s : EditorState) : e.Heeds (e.replaceState s).editor :=
  heeds_announce rfl rfl

lemma heeds_importWorkflow (d : Document) : e.Heeds (e.importWorkflow d).editor := by
  rw [importWorkflow]
  exact read_editor (P := e.Heeds) (.calm rfl) fun w => heeds_replaceState _

lemma saver_execute (e : Editor) : e.execute.editor.saver = e.saver := by
  have hset := saver_setExecuting e true
  refine Outcome.andThen_editor (P := fun x => x.saver = e.saver) hset fun _ => ?_
  refine Outcome.andThen_editor (P := fun x => x.saver = e.saver)
    ((saver_setExecuting _ false).trans hset) fun _ => ?_
  split <;> exact (saver_setExecuting _ false).trans hset

/-- An undo or a redo that is under way announces the state that it turns to. -/
lemma heeds_travel (m : Travel) : e.Heeds (e.travel m).editor := by
  cases hahead : e.ahead m with
  | nil =>
    rw [travel_nil hahead]
    exact .calm rfl
  | cons s rest =>
    have hbegun : e.beginApplying.saver = e.saver := saver_startTimer (by decide)
    rw [travel_cons hahead]
    refine withSnapshot_editor (P := e.Heeds) (.calm hbegun) fun left => ?_
    refine heeds_announce rfl ?_
    rw [← hbegun]
    cases m <;> rfl

lemma watching_endAction (e : Editor) : e.endAction.editor.watching = e.watching := by
  obtain ⟨past, future, hrecorded⟩ := exists_recordState_editor
    ({ e with inAction := false }.cancelTimer .recording) false
  rw [endAction, hrecorded]
  rfl

lemma heeds_load : e.Heeds e.load.editor := by
  rw [load]
  split
  · exact .calm rfl
  · exact .calm rfl
  · next w _ =>
    have himported : e.Heeds (e.beginAction.importExport w).editor := heeds_announce rfl rfl
    refine Outcome.andThen_editor himported fun _ => ?_
    exact himported.trans_calm (saver_endAction _) (watching_endAction _)

lemma heeds_perform {op : Operation} (hop : op.SparesSaving) : e.Heeds (e.perform op) := by
  cases op with
  | addNode type position data => exact heeds_addNode type position data
  | updateNode id changes => exact heeds_updateNode id changes
  | moveNode id position => exact heeds_moveNode id position
  | deleteNode v => exact heeds_deleteGiven v
  | addEdge source target => exact heeds_addEdge source target
  | removeEdge v => exact heeds_removeEdgeGiven v
  | select v => exact heeds_selectGiven v
  | setExecuting v => exact heeds_setExecutingGiven v
  | replaceState s => exact heeds_replaceState s
  | importWorkflow d => exact heeds_importWorkflow d
  | importExport w => exact heeds_replaceState _
  | clear => exact heeds_replaceState _
  | record force => exact .calm (saver_recordState e force)
  | undo => exact heeds_travel .back
  | redo => exact heeds_travel .forth
  | clearHistory | beginAction | stopRecorder => exact .calm rfl
  | endAction => exact .calm (saver_endAction e)
  | scheduleRecording => exact .calm (saver_scheduleRecording e)
  | execute => exact .calm (saver_execute e)
  | load => exact heeds_load
  | save | close | clearStorage | cancelAutosave | advance | changeFiles => exact hop.elim

/-! ### Time -/

/-- As time passes nothing happens, or the autosave comes through that was to come. -/
inductive Elapses (e : Editor) : Editor → Prop where
  | quiet {x : Editor} (h : x.saver = e.saver) : Elapses e x
  | flushed {x : Editor} (hpending : e.savingTimer.pending = true)
      (hdone : x.savingTimer.pending = false)
      (h : x.saver = { e.flush.editor.saver with savingTimer := x.savingTimer }) : Elapses e x

lemma Elapses.of_saver (h : e.Elapses x) (heq : y.saver = x.saver) : e.Elapses y := by
  have htimer : y.savingTimer = x.savingTimer := (congrArg Editor.savingTimer heq :)
  cases h with
  | quiet h => exact .quiet (heq.trans h)
  | flushed hpending hdone h =>
    refine .flushed hpending (htimer ▸ hdone) ?_
    rw [heq, h, htimer]

lemma saver_taken {call : Call TimerName} (howner : call.owner ≠ .saving) :
    (e.taken call).saver = e.saver := by
  obtain ⟨due, owner, generation⟩ := call
  cases owner <;> first | rfl | exact absurd rfl howner

lemma saver_fire {name : TimerName} (hname : name ≠ .saving) :
    (e.fire name).editor.saver = e.saver := by
  cases name with
  | applying => rfl
  | recording =>
    rw [fire]
    split_ifs
    · rfl
    · exact saver_recordState e false
  | saving => exact absurd rfl hname

/-- What a flush does depends on no more than what autosaving is about. -/
lemma saver_flush {t : Timer} (h : x.saver = { e.saver with savingTimer := t }) :
    x.flush.editor.saver = { e.flush.editor.saver with savingTimer := t } := by
  have hunsaved : x.unsaved = e.unsaved := (congrArg Editor.unsaved h :)
  have hconfig : x.config = e.config := (congrArg Editor.config h :)
  have hfiles : x.files = e.files := (congrArg Editor.files h :)
  rw [flush, flush, hunsaved]
  cases e.unsaved with
  | none => exact h
  | some w =>
    have hwritten := (write_congr (w := w) (x := { x with unsaved := none })
      (e := { e with unsaved := none }) hconfig hfiles).2
    obtain ⟨files, hx⟩ := exists_write_editor { x with unsaved := none } w
    obtain ⟨files', he⟩ := exists_write_editor { e with unsaved := none } w
    rw [hx, he] at hwritten
    obtain rfl : files = files' := hwritten
    simp only [Outcome.answering_editor, hx, he]
    exact congrArg (fun s : Editor => { s with unsaved := none, files := files }) h

lemma Elapses.deliver (h : e.Elapses x) (call : Call TimerName) :
    e.Elapses (x.deliver call).editor := by
  cases hexpects : (x.timer call.owner).expects call.generation with
  | false =>
    rw [deliver_of_stale hexpects]
    exact h.of_saver rfl
  | true =>
    rw [deliver_of_expects hexpects]
    by_cases howner : call.owner = .saving
    · obtain ⟨due, owner, generation⟩ := call
      obtain rfl : owner = .saving := howner
      have hexpected : x.savingTimer.expects generation = true := hexpects
      have hpending : x.savingTimer.pending = true := by
        simp only [Timer.expects, Bool.and_eq_true] at hexpected
        exact hexpected.1
      cases h with
      | flushed _ hdone _ => simp [hdone] at hpending
      | quiet h =>
        have htaken : (x.taken ⟨due, .saving, generation⟩).saver =
            { e.saver with savingTimer := x.savingTimer.deliver generation } := by
          rw [← h]
          rfl
        have htimer : e.savingTimer = x.savingTimer := (congrArg Editor.savingTimer h :).symm
        have hflushed := saver_flush htaken
        have hstopped : (x.savingTimer.deliver generation).pending = false := by
          rw [Timer.deliver, if_pos hexpected]
        have hleft : ((x.taken ⟨due, .saving, generation⟩).flush).editor.savingTimer =
            x.savingTimer.deliver generation := (congrArg Editor.savingTimer hflushed :)
        refine .flushed (htimer ▸ hpending) ?_ ?_
        · exact (congrArg Timer.pending hleft).trans hstopped
        · rw [← hleft] at hflushed
          exact hflushed
    · exact h.of_saver ((saver_fire howner).trans (saver_taken howner))

lemma elapses_advance (e : Editor) (span : Int) : e.Elapses (e.advance span).editor :=
  advance_kept (fun _ call hx => hx.deliver call) (fun _ _ hx => hx.of_saver rfl) (.quiet rfl) span

/-! ### Runs -/

/-- Whether an operation leaves the file to the editor, and lets it save. -/
def Operation.SparesFile : Operation → Prop
  | close | clearStorage | cancelAutosave | changeFiles _ => False
  | _ => True

/--
What an operation writes into the editor's file. As the clock is advanced that is what was unsaved,
if the autosave is no longer to come then.
-/
def written (e : Editor) : Operation → Option Export
  | .save => some e.exported
  | .advance span =>
    if e.savingTimer.pending && !(e.advance span).editor.savingTimer.pending then e.unsaved
    else none
  | _ => none

/-- Whether an operation writes what it writes. -/
def WritesSucceed (e : Editor) (op : Operation) : Prop :=
  ∀ w ∈ e.written op, (e.write w).answer = .ok true

/-- Whether an operation leaves the graph as it is, or one that a watching recorder can see. -/
def KeepsInSight (e : Editor) (op : Operation) : Prop :=
  (e.perform op).state.graph = e.state.graph ∨
    ((e.perform op).watching = true → (e.perform op).state.graph.IsVisible)

/--
The editors with autosave that announced a change of their graph and were used further. Nobody else
touched the file or called off an autosave since then, all writes succeeded, and the recorder could
see every new graph.
-/
inductive Attended : Editor → Prop where
  | announced {e : Editor} (op : Operation) (hauto : e.autosaving = true)
      (h : (e.perform op).notices ≠ e.notices) : Attended (e.perform op)
  | after {e : Editor} (h : Attended e) (op : Operation) (hop : op.SparesFile)
      (hwrites : e.WritesSucceed op) (hsees : e.KeepsInSight op) : Attended (e.perform op)

/-- What holds all along: the autosave to come writes the graph, or the file holds it. -/
structure IsSafe (e : Editor) : Prop where
  autosaving : e.autosaving = true
  kept : e.IsAwaited ∨ e.savingTimer.pending = false ∧ e.IsSaved

lemma IsSafe.of_saver (h : e.IsSafe) (heq : x.saver = e.saver) : x.IsSafe where
  autosaving := (congrArg Editor.autosaving heq :).trans h.autosaving
  kept := by
    have htimer : x.savingTimer = e.savingTimer := (congrArg Editor.savingTimer heq :)
    rw [htimer]
    exact h.kept.imp (.of_saver heq) (And.imp_right (.of_saver heq))

lemma IsAwaited.isSafe_announce (h : (y.announce change).editor.IsAwaited)
    (hauto : y.autosaving = true) : (y.announce change).editor.IsSafe where
  autosaving := (congrArg Editor.autosaving (still_announce y change) :).trans hauto
  kept := .inl h

/-- A change of the graph that was announced is safe. -/
lemma Heeds.isSafe_of_notices (h : e.Heeds x) (hauto : e.autosaving = true)
    (hnotices : x.notices ≠ e.notices) : x.IsSafe := by
  cases h with
  | calm h => exact absurd (congrArg Editor.announced h :) hnotices
  | @changed y change hwatched hy hx hwatching =>
    have hautosaving : y.autosaving = e.autosaving := (congrArg Editor.autosaving hy :)
    have hbefore : y.notices = e.notices := (congrArg Editor.announced hy :)
    have hafter : x.notices = (y.announce change).editor.notices := (congrArg Editor.announced hx :)
    have hnew : (y.announce change).editor.notices ≠ y.notices := by
      rwa [← hafter, hbefore]
    have hawaited := isAwaited_of_notices (hautosaving.trans hauto) hwatched hnew
    exact (hawaited.isSafe_announce (hautosaving.trans hauto)).of_saver hx

/-- What is safe stays so if the recorder can see the new graph. -/
lemma Heeds.isSafe (h : e.Heeds x) (hsafe : e.IsSafe) (hsees : x.state.graph = e.state.graph ∨
    (x.watching = true → x.state.graph.IsVisible)) : x.IsSafe := by
  cases h with
  | calm h => exact hsafe.of_saver h
  | @changed y change hwatched hy hx hwatching =>
    have hautosaving : y.autosaving = e.autosaving := (congrArg Editor.autosaving hy :)
    have hgraph := graph_of_announced hx
    by_cases hrecorder : y.recorderReacts.Succeeds
    · have hawaited := isAwaited_announce (hautosaving.trans hsafe.autosaving) hwatched hrecorder
      exact (hawaited.isSafe_announce (hautosaving.trans hsafe.autosaving)).of_saver hx
    · -- nobody is told, which does no harm only to a graph that is still the same
      rcases hsees with hsame | hvisible
      · refine hsafe.of_saver ?_
        rw [hx, saver_announce_of_fails hrecorder, hy]
        simp only [saver, ← hgraph, hsame]
      · rw [hwatching, hgraph] at hvisible
        exact absurd (recorderReacts_succeeds_iff.2 hvisible) hrecorder

lemma notices_of_elapses (h : e.Elapses x) : x.notices = e.notices := by
  cases h with
  | quiet h => exact (congrArg Editor.announced h :)
  | flushed _ _ h =>
    obtain ⟨unsaved, files, hflushed⟩ := exists_flush_editor e
    rw [hflushed] at h
    exact (congrArg Editor.announced h :)

lemma notices_write (w : Export) : (e.write w).editor.notices = e.notices := by
  obtain ⟨files, hwritten⟩ := exists_write_editor e w
  rw [hwritten]
  rfl

/-- What changes or saves no graph announces none. -/
lemma notices_perform {op : Operation} (hop : ¬op.SparesSaving) :
    (e.perform op).notices = e.notices := by
  cases op with
  | save => exact notices_write _
  | close | cancelAutosave | changeFiles => rfl
  | clearStorage =>
    rw [perform, clearStorage]
    split
    · rfl
    · rw [refused_editor]
  | advance span => exact notices_of_elapses (elapses_advance e span)
  | _ => exact absurd trivial hop

lemma IsSaved.of_write {time : Int}
    (h : (e.write ⟨e.state.graph, exportVersion, time⟩).answer = .ok true) :
    (e.write ⟨e.state.graph, exportVersion, time⟩).editor.IsSaved := by
  obtain ⟨text, htext, hfile⟩ := exists_of_write h
  obtain ⟨files, hwritten⟩ := exists_write_editor e ⟨e.state.graph, exportVersion, time⟩
  rw [hwritten] at hfile ⊢
  exact ⟨time, text, htext, hfile⟩

/-- A save leaves the timer alone, and writes the graph. -/
lemma IsSafe.save (h : e.IsSafe) (hwrites : e.WritesSucceed .save) : e.save.editor.IsSafe := by
  have hsaved : e.save.editor.IsSaved := IsSaved.of_write (hwrites _ rfl)
  obtain ⟨files, hwritten⟩ := exists_write_editor e e.exported
  rw [Editor.save, hwritten] at hsaved ⊢
  refine ⟨h.autosaving, ?_⟩
  rcases h.kept with hawaited | ⟨hidle, -⟩
  · exact .inl hawaited
  · exact .inr ⟨hidle, hsaved⟩

/-- An autosave that comes through writes the graph. -/
lemma IsSafe.advance (h : e.IsSafe) {span : Nat} (hwrites : e.WritesSucceed (.advance span)) :
    (e.advance span).editor.IsSafe := by
  have helapses := elapses_advance e span
  have hwritten : e.written (.advance span) =
      if e.savingTimer.pending && !(e.advance span).editor.savingTimer.pending then e.unsaved
      else none := rfl
  rw [WritesSucceed, hwritten] at hwrites
  generalize (e.advance span).editor = x at helapses hwrites ⊢
  cases helapses with
  | quiet hsame => exact h.of_saver hsame
  | flushed hpending hdone hflushed =>
    rcases h.kept with ⟨-, time, hunsaved⟩ | ⟨hidle, -⟩
    · have hanswer : (e.write ⟨e.state.graph, exportVersion, time⟩).answer = .ok true :=
        hwrites _ (by simp [hpending, hdone, hunsaved])
      let e' : Editor := { e with unsaved := none }
      have hanswer' : (e'.write ⟨e'.state.graph, exportVersion, time⟩).answer = .ok true :=
        (write_congr (x := e') (e := e) rfl rfl).1.trans hanswer
      have hsaved := IsSaved.of_write hanswer'
      obtain ⟨files, hwritten'⟩ := exists_write_editor e' ⟨e'.state.graph, exportVersion, time⟩
      rw [hwritten'] at hsaved
      have hflush : e.flush.editor = { e' with files := files } := by
        rw [flush, hunsaved]
        exact hwritten'
      rw [hflush] at hflushed
      refine ⟨(congrArg Editor.autosaving hflushed :).trans h.autosaving,
        .inr ⟨hdone, ?_⟩⟩
      have hgraph : x.state.graph = e.state.graph := (congrArg (fun s => s.state.graph) hflushed :)
      have hconfig : x.config = e.config := (congrArg Editor.config hflushed :)
      have hfiles : x.files = files := (congrArg Editor.files hflushed :)
      rw [IsSaved, hgraph, hconfig, hfiles]
      exact hsaved
    · simp [hidle] at hpending

/-- Every operation of an attended editor keeps it safe. -/
lemma Attended.isSafe (h : e.Attended) : e.IsSafe := by
  induction h with
  | @announced e op hauto h =>
    by_cases hop : op.SparesSaving
    · exact (heeds_perform hop).isSafe_of_notices hauto h
    · exact absurd (notices_perform hop) h
  | @after e _ op hop hwrites hsees ih =>
    by_cases hsparing : op.SparesSaving
    · exact (heeds_perform hsparing).isSafe ih hsees
    · cases op with
      | save => exact ih.save hwrites
      | advance span => exact ih.advance hwrites
      | close | clearStorage | cancelAutosave | changeFiles => exact hop.elim
      | _ => exact absurd trivial hsparing

/-- An editor with autosave and a file of its own, to which a start node was added. -/
def begun : Editor :=
  (new { storage := { path := ⟨"", ["w.json"]⟩ } } true 0).perform
    (.addNode (.str "start") .null .null)

end Editor

end Workflow
