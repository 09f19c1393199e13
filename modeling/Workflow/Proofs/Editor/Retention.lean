import Workflow.Proofs.Editor.Action

/-!
# What history retains

History has room for a limited number of states. Only recording makes room: the oldest entry goes.
Undo and redo move states from one stack to the other, so that the stacks stay within the limit
together. As long as history is not revised, the past is the end of the list of all that was
recorded.
-/

namespace Workflow.Editor

/-- Whether an operation does something to history other than recording. -/
def Operation.Revises : Operation → Prop
  | undo | redo | clearHistory | load => True
  | _ => False

/-! ### What is recorded -/

/-- What was recorded if a recording of the present gives the answer. -/
def recorded (e : Editor) (answer : Except EditorFailure Bool) : List EditorState :=
  match e.snapshot, answer with
  | .ok s, .ok true => [s]
  | _, _ => []

/-- What a call records. -/
def recordedBy (e : Editor) (call : Call TimerName) : List EditorState :=
  if call.owner = .recording ∧ e.recordingTimer.expects call.generation = true ∧
      e.inAction = false then
    e.recorded (e.recordState false).answer
  else []

/-- What calls record that come one after the other, up to the first that fails. -/
def recordedByAll (e : Editor) : List (Call TimerName) → List EditorState
  | [] => []
  | call :: later => e.recordedBy call ++
    match (e.deliver call).answer with
    | .ok _ => (e.deliver call).editor.recordedByAll later
    | .error _ => []

/-- What an operation records that does not revise history. -/
def recordedIn (e : Editor) : Operation → List EditorState
  | .record force => e.recorded (e.recordState force).answer
  | .endAction => e.recorded e.endAction.answer
  | .advance span => e.recordedByAll (e.clock.dueBy (e.clock.now + span))
  | _ => []

/-- All that is recorded in a session, the oldest first. -/
def recordedAlong (e : Editor) : List Operation → List EditorState
  | [] => []
  | op :: ops => e.recordedIn op ++ (e.perform op).recordedAlong ops

/-- The number of states that history has room for. -/
def room (e : Editor) : Nat :=
  e.config.history.maxStates.toNat

/-! ### The limit -/

/-- The two stacks of history are within its limit together. -/
def Bounded (e : Editor) : Prop :=
  1 ≤ e.config.history.maxStates → e.past.length + e.future.length ≤ e.room

section Limit

variable {e e' : Editor}

lemma Bounded.of_held (h : e.Bounded) (heq : e'.held = e.held) : e'.Bounded := by
  have hconfig : e'.config = e.config := (congrArg Editor.config heq :)
  have hpast : e'.past = e.past := (congrArg Editor.past heq :)
  have hfuture : e'.future = e.future := (congrArg Editor.future heq :)
  rw [Bounded, room, hconfig, hpast, hfuture]
  exact h

lemma Bounded.announce (h : e.Bounded) {serial : Nat} {state : EditorState} {misfits : Misfits}
    (change : Change) :
    ({ e with serial := serial, state := state, misfits := misfits }.announce
      change).editor.Bounded := by
  refine Bounded.of_held ?_ (held_of_still (still_announce _ change))
  exact h

/-- What exceeds the limit is what is the furthest back. -/
lemma push_past_of_le (hroom : 1 ≤ e.config.history.maxStates) (hle : e.past.length ≤ e.room)
    (s : EditorState) : (e.push s).past = (s :: e.past).take e.room := by
  simp only [push, room] at hle ⊢
  split_ifs with hfull
  · rw [List.dropLast_eq_take]
    congr 1
    rw [List.length_cons] at hfull ⊢
    omega
  · rw [List.take_of_length_le]
    omega

lemma Bounded.push (h : e.Bounded) (s : EditorState) : (e.push s).Bounded := by
  intro (hroom : 1 ≤ e.config.history.maxStates)
  have hle : e.past.length ≤ e.room := (Nat.le_add_right _ _).trans (h hroom)
  change (e.push s).past.length ≤ e.room
  rw [push_past_of_le hroom hle]
  exact List.length_take_le e.room (s :: e.past)

lemma Bounded.shift {m : Travel} {left s : EditorState} {rest : List EditorState}
    (h : e.Bounded) (hahead : e.ahead m = s :: rest) : (e.shift m left rest).Bounded := by
  intro hroom
  -- one stack loses a state and the other one gets a state
  cases m with
  | back =>
    have hbound := h hroom
    simp only [show e.past = s :: rest from hahead, List.length_cons] at hbound
    change rest.length + (left :: e.future).length ≤ e.room
    simp only [List.length_cons]
    omega
  | forth =>
    have hbound := h hroom
    simp only [show e.future = s :: rest from hahead, List.length_cons] at hbound
    change (left :: e.past).length + rest.length ≤ e.room
    simp only [List.length_cons]
    omega

lemma keptByWork_bounded : KeptByWork Bounded := by
  refine .of_held (fun _ _ heq h => h.of_held heq) (fun _ _ h => ?_) (fun _ _ _ => ?_)
    (fun _ s h _ => ?_) fun _ _ _ _ _ h _ hahead => ?_
  · exact h.announce .executing
  · exact Nat.zero_le _
  · exact h.push s
  · exact (h.shift hahead).announce .state

lemma Reachable.bounded (h : e.Reachable) : e.Bounded := by
  induction h with
  | opened config autosaving epoch files room => exact fun _ => Nat.zero_le _
  | @after x _ op ih =>
    by_cases hedit : op.IsEdit
    · have hsame : x.Undisturbed (x.perform op) := undisturbed_perform hedit
      rw [Bounded, room, hsame.config, hsame.past, hsame.future]
      exact ih
    · exact keptByWork_bounded.perform hedit (fun _ _ _ hbegun => hbegun.announce .state) ih

end Limit

/-! ### The newest entries -/

/-- The past of an editor is the newest part of another one's past and of what came after it. -/
structure Retains (e : Editor) (log : List EditorState) (x : Editor) : Prop where
  config : x.config = e.config
  past : x.past = (log.reverse ++ e.past).take e.room

section Retains

variable {e x x' : Editor} {log : List EditorState} {op : Operation}

lemma recordState_recorded (e : Editor) (force : Bool) :
    (∃ s, e.recorded (e.recordState force).answer = [s] ∧
      (e.recordState force).editor = e.push s) ∨
    e.recorded (e.recordState force).answer = [] ∧ (e.recordState force).editor = e := by
  rcases recordState_cases e force with ⟨s, hs, hrecorded⟩ | ⟨hsame, hnot⟩
  · refine .inl ⟨s, ?_, ?_⟩ <;> simp [recorded, hs, hrecorded, done]
  · refine .inr ⟨?_, hsame⟩
    cases hanswer : (e.recordState force).answer with
    | error f => cases hs : e.snapshot <;> simp [recorded, hs]
    | ok made =>
      have hnone : made = false := by simpa [hanswer] using hnot
      cases hs : e.snapshot <;> simp [recorded, hs, hnone]

lemma Retains.of_same (h : e.Retains log x) (hconfig : x'.config = x.config)
    (hpast : x'.past = x.past) : e.Retains log x' :=
  ⟨hconfig.trans h.config, hpast.trans h.past⟩

lemma Retains.push (h : e.Retains log x) (hroom : 1 ≤ e.config.history.maxStates)
    (s : EditorState) : e.Retains (log ++ [s]) (x.push s) := by
  have hsame : x.room = e.room := by rw [room, room, h.config]
  have hle : x.past.length ≤ x.room := by
    rw [h.past, hsame]
    exact List.length_take_le _ _
  constructor
  · exact h.config
  · -- there is room for one entry, and what is beyond the limit before it stays beyond
    obtain ⟨n, hn⟩ : ∃ n, e.room = n + 1 :=
      Nat.exists_eq_succ_of_ne_zero (by rw [room]; omega)
    rw [push_past_of_le (h.config ▸ hroom) hle, h.past, hsame, hn]
    simp [List.take_take]

lemma Retains.recordState (h : e.Retains log x) (hroom : 1 ≤ e.config.history.maxStates)
    (force : Bool) : e.Retains (log ++ x.recorded (x.recordState force).answer)
      (x.recordState force).editor := by
  rcases recordState_recorded x force with ⟨s, hlog, heditor⟩ | ⟨hlog, heditor⟩
  · rw [hlog, heditor]
    exact h.push hroom s
  · rw [hlog, heditor, List.append_nil]
    exact h

lemma Retains.endAction (h : e.Retains log x) (hroom : 1 ≤ e.config.history.maxStates) :
    e.Retains (log ++ x.recorded x.endAction.answer) x.endAction.editor := by
  obtain ⟨hanswer, hpast, -⟩ := endAction_eq_recordState x
  have hconfig : x.endAction.editor.config = (x.recordState false).editor.config := by
    obtain ⟨_, _, hrecorded⟩ := exists_recordState_editor x false
    obtain ⟨_, _, hended⟩ :=
      exists_recordState_editor ({ x with inAction := false }.cancelTimer .recording) false
    rw [Editor.endAction, hrecorded, hended]
    rfl
  rw [hanswer]
  exact (h.recordState hroom false).of_same hconfig hpast

/-! ### Calls -/

lemma Retains.deliver (h : e.Retains log x) (hroom : 1 ≤ e.config.history.maxStates)
    (call : Call TimerName) :
    e.Retains (log ++ x.recordedBy call) (x.deliver call).editor := by
  have htaken : x.Rests (x.taken call) := rests_taken x call
  cases hexpects : (x.timer call.owner).expects call.generation with
  | false =>
    have hnone : x.recordedBy call = [] := by
      rw [recordedBy, if_neg]
      rintro ⟨howner, hexpected, -⟩
      rw [howner] at hexpects
      exact Bool.false_ne_true (hexpects.symm.trans hexpected)
    rw [deliver_of_stale hexpects, hnone, List.append_nil]
    exact h.of_same rfl rfl
  | true =>
    rw [deliver_of_expects hexpects]
    obtain ⟨due, owner, generation⟩ := call
    cases owner with
    | applying =>
      simp only [recordedBy, reduceCtorEq, false_and, if_false, List.append_nil]
      exact h.of_same rfl rfl
    | saving =>
      simp only [recordedBy, reduceCtorEq, false_and, if_false, List.append_nil]
      obtain ⟨unsaved, files, hflushed⟩ := exists_flush_editor (x.taken ⟨due, .saving, generation⟩)
      rw [fire, hflushed]
      exact h.of_same rfl rfl
    | recording =>
      have hexpected : x.recordingTimer.expects generation = true := hexpects
      rw [recordedBy, fire, htaken.inAction]
      cases hidle : x.inAction with
      | true =>
        simp only [Bool.true_eq_false, and_false, if_false, if_true, List.append_nil]
        exact h.of_same rfl rfl
      | false =>
        obtain ⟨hrests, -⟩ := htaken.recordState false
        simp only [hexpected, and_self, if_true, Bool.false_eq_true, if_false,
          Outcome.answering_editor]
        exact (h.recordState hroom false).of_same hrests.config hrests.past

lemma Retains.deliverAll (h : e.Retains log x) (hroom : 1 ≤ e.config.history.maxStates)
    (calls : List (Call TimerName)) :
    e.Retains (log ++ x.recordedByAll calls) (x.deliverAll calls).editor := by
  induction calls generalizing x log with
  | nil => rwa [recordedByAll, List.append_nil]
  | cons call calls ih =>
    have hfirst := h.deliver hroom call
    rw [recordedByAll, Editor.deliverAll, ← List.append_assoc]
    cases hanswer : (x.deliver call).answer with
    | ok a =>
      rw [Outcome.andThen_of_ok hanswer]
      exact ih hfirst
    | error f =>
      rw [Outcome.andThen_of_error hanswer, List.append_nil]
      exact hfirst

lemma Retains.advance (h : e.Retains log x) (hroom : 1 ≤ e.config.history.maxStates)
    (span : Int) :
    e.Retains (log ++ x.recordedByAll (x.clock.dueBy (x.clock.now + span)))
      (x.advance span).editor := by
  have hdelivered := h.deliverAll hroom (x.clock.dueBy (x.clock.now + span))
  exact Outcome.andThen_editor hdelivered fun _ => hdelivered.of_same rfl rfl

/-! ### Operations -/

lemma keptByChores_retains (e : Editor) (log : List EditorState) :
    KeptByChores (e.Retains log) := by
  refine .of_held (fun x x' heq h => ?_) fun x value h => ?_
  · have hconfig : x'.config = x.config := (congrArg Editor.config heq :)
    have hpast : x'.past = x.past := (congrArg Editor.past heq :)
    exact h.of_same hconfig hpast
  · have hsame : x.Undisturbed (x.perform (.setExecuting (.bool value))) :=
      undisturbed_perform trivial
    exact h.of_same hsame.config hsame.past

lemma recordedIn_of_isEdit (x : Editor) (hop : op.IsEdit) : x.recordedIn op = [] := by
  cases op <;> first | rfl | exact hop.elim

lemma recordedIn_of_isChore (x : Editor) (hop : op.IsChore) : x.recordedIn op = [] := by
  cases op <;> first | rfl | exact hop.elim

lemma Retains.perform (h : e.Retains log x) (hroom : 1 ≤ e.config.history.maxStates)
    (hop : ¬op.Revises) : e.Retains (log ++ x.recordedIn op) (x.perform op) := by
  by_cases hedit : op.IsEdit
  · have hsame : x.Undisturbed (x.perform op) := undisturbed_perform hedit
    rw [recordedIn_of_isEdit x hedit, List.append_nil]
    exact h.of_same hsame.config hsame.past
  by_cases hchore : op.IsChore
  · rw [recordedIn_of_isChore x hchore, List.append_nil]
    exact (keptByChores_retains e log).perform hchore h
  cases op with
  | record force => exact h.recordState hroom force
  | endAction => exact h.endAction hroom
  | advance span => exact h.advance hroom span
  | undo | redo | clearHistory | load => exact absurd trivial hop
  | beginAction | scheduleRecording | stopRecorder | execute | save | close | clearStorage
  | cancelAutosave | changeFiles => exact absurd trivial hchore
  | _ => exact absurd trivial hedit

lemma Retains.performAll {ops : List Operation} (h : e.Retains log x)
    (hroom : 1 ≤ e.config.history.maxStates) (hops : ∀ op ∈ ops, ¬op.Revises) :
    e.Retains (log ++ x.recordedAlong ops) (x.performAll ops) := by
  induction ops generalizing x log with
  | nil => rwa [recordedAlong, List.append_nil]
  | cons op ops ih =>
    obtain ⟨hop, hlater⟩ := List.forall_mem_cons.1 hops
    rw [recordedAlong, ← List.append_assoc]
    exact ih (h.perform hroom hop) hlater

end Retains

/--
History is bounded and keeps what is newest. Its stacks never exceed the limit together. As long as
there is no undo and no redo, and history is neither cleared nor begun anew by a load, the past is
the newest part of what it was and of what has been recorded since, the oldest entry first: as much
of it as there is room for. In a session without any of these the past is empty at first, so that it
is the newest part of all that was recorded.
-/
theorem history_keeps_newest {e : Editor} (h : e.Reachable)
    (hroom : 1 ≤ e.config.history.maxStates) :
    (e.past.length + e.future.length : Int) ≤ e.config.history.maxStates ∧
    ∀ ops : List Operation, (∀ op ∈ ops, ¬op.Revises) →
      let entries := e.past.reverse ++ e.recordedAlong ops
      (e.performAll ops).past.reverse = entries.rtake e.config.history.maxStates.toNat ∧
        (e.performAll ops).past.length
          = min entries.length e.config.history.maxStates.toNat := by
  have hbound : e.past.length + e.future.length ≤ e.room := h.bounded hroom
  constructor
  · rw [room] at hbound
    omega
  · intro ops hops entries
    have hle : e.past.length ≤ e.room := (Nat.le_add_right _ _).trans hbound
    have hbegun : e.Retains [] e := ⟨rfl, (List.take_of_length_le hle).symm⟩
    have hpast : (e.performAll ops).past = entries.reverse.take e.room := by
      simpa [entries] using (hbegun.performAll hroom hops).past
    constructor
    · rw [hpast, List.rtake_eq_reverse_take_reverse, room]
    · rw [hpast, List.length_take, List.length_reverse, min_comm, room]

/-- An editor whose history has room for two states. -/
def narrow : Editor :=
  new { history := { maxStates := 2 } } false 0

/-- Three selections, each of which is recorded. -/
def selections : List Operation :=
  [.select (.str "a"), .record true, .select (.str "b"), .record true, .select (.str "c"),
    .record true]

/-- The first of three entries has to go. -/
theorem history_keeps_newest_narrow :
    (narrow.recordedAlong selections).map (·.selected) = [some "a", some "b", some "c"] ∧
      (narrow.performAll selections).past.map (·.selected) = [some "c", some "b"] ∧
      (narrow.performAll selections).past.length
        + (narrow.performAll selections).future.length ≤ 2 := by
  have hreachable : narrow.Reachable := .opened _ false 0 {} .standard
  have hroom : 1 ≤ narrow.config.history.maxStates := by decide
  have hops : ∀ op ∈ selections, ¬op.Revises := by
    simp [selections, Operation.Revises]
  have hlog : (narrow.recordedAlong selections).map (·.selected)
      = [some "a", some "b", some "c"] := rfl
  obtain ⟨-, hkeeps⟩ := history_keeps_newest hreachable hroom
  have hpast := congrArg (List.map (·.selected)) (hkeeps selections hops).1
  obtain ⟨hbound, -⟩ := history_keeps_newest (hreachable.performAll selections) hroom
  refine ⟨hlog, List.reverse_injective ?_, Int.ofNat_le.1 hbound⟩
  rw [← List.map_reverse]
  exact hpast.trans (by rfl)

end Workflow.Editor
