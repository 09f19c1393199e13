import Workflow.Proofs.Editor.Reaction

/-!
# The timeline of an editor

The past, the present and the future of an editor lie on one line. Undo and redo leave the line as
it is and only move the place of the present on it, by one step or, if they are refused or the
present cannot be kept, not at all.
-/

namespace Workflow

/-- A step along the history of an editor. -/
inductive Travel where
  | back
  | forth

namespace Editor

/-- Undo or redo. -/
def travel (e : Editor) : Travel → Outcome Bool
  | .back => e.undo
  | .forth => e.redo

/-- Some undos and redos, one after the other, whatever each of them answers. -/
def travelAll (e : Editor) (moves : List Travel) : Editor :=
  moves.foldl (fun e m => (e.travel m).editor) e

/-- The states that lie ahead in a direction, the next one first. -/
def ahead (e : Editor) : Travel → List EditorState
  | .back => e.past
  | .forth => e.future

/-- The stacks after a step that leaves one state behind and has others still ahead. -/
def shift (e : Editor) (m : Travel) (left : EditorState) (rest : List EditorState) : Editor :=
  match m with
  | .back => { e with past := rest, future := left :: e.future }
  | .forth => { e with past := left :: e.past, future := rest }

/-- The states of the past, the present one and those of the future, the oldest first. -/
def timeline (e : Editor) : List (Reading EditorState) :=
  e.past.reverse.map .ok ++ e.present :: e.future.map .ok

/-- The place of the present on the timeline. -/
def cursor (e : Editor) : Nat :=
  e.past.length

variable {e e' : Editor} {m : Travel} {s left : EditorState} {rest : List EditorState}

/-! ### Snapshots -/

lemma snapshot_of_misfits (h : e.misfits = {}) :
    e.snapshot = if e.state.IsCopyable e.copyRoom then .ok e.state else .error .tooDeep := by
  rw [snapshot, present_of_misfits h]

/-- A snapshot is the present as it is read, if there is room to copy it. -/
lemma snapshot_eq_ok_iff : e.snapshot = .ok s ↔ e.present = .ok s ∧ s.IsCopyable e.copyRoom := by
  rw [snapshot]
  cases e.present with
  | failed issues => simp
  | ok s' =>
    dsimp only
    split_ifs with hroom
    · simp only [Except.ok.injEq, Reading.ok.injEq]
      exact ⟨fun h => ⟨h, h ▸ hroom⟩, And.left⟩
    · simp only [Reading.ok.injEq, false_iff, not_and]
      rintro rfl
      exact hroom

lemma snapshot_congr (hpresent : e'.present = e.present) (hroom : e'.copyRoom = e.copyRoom) :
    e'.snapshot = e.snapshot := by
  rw [snapshot, snapshot, hpresent, hroom]

lemma timeline_still (e : Editor) : e.still.timeline = e.timeline := rfl

lemma snapshot_still (e : Editor) : e.still.snapshot = e.snapshot := rfl

/-! ### One step -/

lemma travel_nil (h : e.ahead m = []) : e.travel m = e.done false := by
  cases m with
  | back =>
    simp only [ahead] at h
    simp only [travel, undo, h]
  | forth =>
    simp only [ahead] at h
    simp only [travel, redo, h]

lemma travel_cons (h : e.ahead m = s :: rest) :
    e.travel m = e.beginApplying.withSnapshot fun left =>
      ((e.beginApplying.shift m left rest).replaceState s).answering true := by
  cases m with
  | back =>
    simp only [ahead] at h
    simp only [travel, undo, h, shift]
  | forth =>
    simp only [ahead] at h
    simp only [travel, redo, h, shift]

lemma still_beginApplying (e : Editor) :
    e.beginApplying.still = { e with applying := true }.still :=
  still_startTimer _ _

lemma snapshot_beginApplying (e : Editor) : e.beginApplying.snapshot = e.snapshot := by
  rw [← snapshot_still, still_beginApplying, snapshot_still]
  rfl

/-- Whether steps can be taken: there is a snapshot of the present. -/
def CanTravel (e : Editor) : Prop :=
  ∃ left, e.snapshot = .ok left

/-- A step that finds a snapshot of the present takes it. -/
lemma travel_eq (h : e.ahead m = s :: rest) (hsnapshot : e.snapshot = .ok left) :
    e.travel m = ((e.beginApplying.shift m left rest).replaceState s).answering true := by
  rw [travel_cons h, withSnapshot_of_ok ((snapshot_beginApplying e).trans hsnapshot)]

/-- A step that cannot be taken raises and opens the window at most. -/
lemma travel_of_not_canTravel (h : ¬e.CanTravel) (hne : e.ahead m ≠ []) :
    (∃ f, (e.travel m).answer = .error f) ∧ (e.travel m).editor = e.beginApplying := by
  obtain ⟨s, rest, hahead⟩ := List.exists_cons_of_ne_nil hne
  cases hsnapshot : e.snapshot with
  | ok left => exact absurd ⟨left, hsnapshot⟩ h
  | error f =>
    rw [travel_cons hahead, withSnapshot_of_error ((snapshot_beginApplying e).trans hsnapshot)]
    exact ⟨⟨f, rfl⟩, rfl⟩

/-- A step that can be taken changes the stacks and the state, and nothing else that stays. -/
lemma still_travel (h : e.ahead m = s :: rest) (hsnapshot : e.snapshot = .ok left) :
    (e.travel m).editor.still
      = { e.shift m left rest with applying := true, state := s, misfits := {} }.still := by
  have hshift : { e.beginApplying.shift m left rest with state := s, misfits := {} }.still
      = { e.beginApplying.still.shift m left rest with state := s, misfits := {} }.still := by
    cases m <;> rfl
  rw [travel_eq h hsnapshot, Outcome.answering_editor, still_replaceState, hshift,
    still_beginApplying]
  cases m <;> rfl

/-- A step along the history leaves the room for copies as it is. -/
lemma copyRoom_travel (e : Editor) (m : Travel) : (e.travel m).editor.copyRoom = e.copyRoom := by
  cases hahead : e.ahead m with
  | nil => rw [travel_nil hahead]; rfl
  | cons s rest =>
    by_cases hcan : e.CanTravel
    · obtain ⟨left, hsnapshot⟩ := hcan
      refine (congrArg Editor.copyRoom (still_travel hahead hsnapshot) :).trans ?_
      cases m <;> rfl
    · rw [(travel_of_not_canTravel hcan (by simp [hahead])).2]
      exact (congrArg Editor.copyRoom (still_beginApplying e) :)

/-- A step along the history leaves the timeline as it is. -/
lemma timeline_travel (e : Editor) (m : Travel) : (e.travel m).editor.timeline = e.timeline := by
  cases hahead : e.ahead m with
  | nil =>
    rw [travel_nil hahead]
    rfl
  | cons s rest =>
    by_cases hcan : e.CanTravel
    · obtain ⟨left, hsnapshot⟩ := hcan
      rw [← timeline_still, still_travel hahead hsnapshot, timeline_still]
      have hpresent : { e.shift m left rest with
          applying := true, state := s, misfits := {} }.present = .ok s :=
        present_of_misfits rfl
      rw [timeline, timeline, hpresent, (snapshot_eq_ok_iff.1 hsnapshot).1]
      cases m with
      | back =>
        have hpast : e.past = s :: rest := hahead
        simp [shift, hpast]
      | forth =>
        have hfuture : e.future = s :: rest := hahead
        simp [shift, hfuture]
    · rw [(travel_of_not_canTravel hcan (by simp [hahead])).2, ← timeline_still,
        still_beginApplying]
      rfl

/-- Any steps along the history leave the timeline as it is. -/
lemma timeline_travelAll (e : Editor) (moves : List Travel) :
    (e.travelAll moves).timeline = e.timeline := by
  induction moves generalizing e with
  | nil => rfl
  | cons m moves ih => exact (ih (e.travel m).editor).trans (timeline_travel e m)

lemma copyRoom_travelAll (e : Editor) (moves : List Travel) :
    (e.travelAll moves).copyRoom = e.copyRoom := by
  induction moves generalizing e with
  | nil => rfl
  | cons m moves ih => exact (ih (e.travel m).editor).trans (copyRoom_travel e m)

/-! ### The place of the present -/

/-- The timeline and the place of the present on it determine the stacks and the present. -/
lemma eq_of_timeline_eq (h : e'.timeline = e.timeline) (hcursor : e'.cursor = e.cursor) :
    e'.past = e.past ∧ e'.future = e.future ∧ e'.present = e.present := by
  have hok : Function.Injective (Reading.ok : EditorState → Reading EditorState) :=
    fun a b hab => Reading.ok.inj hab
  obtain ⟨hpast, hrest⟩ := List.append_inj h (by simpa [cursor] using hcursor)
  obtain ⟨hpresent, hfuture⟩ := List.cons.inj hrest
  exact ⟨List.reverse_injective (List.map_injective_iff.2 hok hpast),
    List.map_injective_iff.2 hok hfuture, hpresent⟩

lemma cursor_travel_back (h : e.CanTravel) (hne : e.past ≠ []) :
    (e.travel .back).editor.cursor + 1 = e.cursor := by
  obtain ⟨newest, older, hpast⟩ := List.exists_cons_of_ne_nil hne
  obtain ⟨left, hsnapshot⟩ := h
  have hstill := still_travel (m := .back) hpast hsnapshot
  have hafter : (e.travel .back).editor.past = older := congrArg Editor.past hstill
  simp [cursor, hafter, hpast]

lemma cursor_travel_forth (h : e.CanTravel) (hne : e.future ≠ []) :
    (e.travel .forth).editor.cursor = e.cursor + 1 := by
  obtain ⟨next, later, hfuture⟩ := List.exists_cons_of_ne_nil hne
  obtain ⟨left, hsnapshot⟩ := h
  have hstill := still_travel (m := .forth) hfuture hsnapshot
  have hafter : (e.travel .forth).editor.past = left :: e.past := congrArg Editor.past hstill
  simp [cursor, hafter]

/-- Where no step can be taken, none can be taken after it either, and the stacks stay. -/
lemma travel_stays (h : ¬e.CanTravel) (m : Travel) :
    ¬(e.travel m).editor.CanTravel ∧ (e.travel m).editor.cursor = e.cursor := by
  cases hahead : e.ahead m with
  | nil =>
    rw [travel_nil hahead]
    exact ⟨h, rfl⟩
  | cons s rest =>
    rw [(travel_of_not_canTravel h (by simp [hahead])).2, CanTravel, snapshot_beginApplying]
    exact ⟨h, congrArg List.length (congrArg Editor.past (still_beginApplying e) :)⟩

/-- Where no step can be taken, the present does not move. -/
lemma cursor_travelAll_of_not_canTravel (h : ¬e.CanTravel) (moves : List Travel) :
    (e.travelAll moves).cursor = e.cursor := by
  induction moves generalizing e with
  | nil => rfl
  | cons m moves ih =>
    obtain ⟨hcan, hcursor⟩ := travel_stays h m
    exact (ih hcan).trans hcursor

lemma length_timeline (e : Editor) : e.timeline.length = e.cursor + e.future.length + 1 := by
  simp [timeline, cursor]
  omega

/-! ### Stacks of copies -/

/-- Whether there is room to copy every state on the stacks. -/
def HoldsCopies (e : Editor) : Prop :=
  ∀ s ∈ e.past ++ e.future, s.IsCopyable e.copyRoom

/-- A step to a state that can be copied leads to where steps can be taken. -/
lemma canTravel_travel (h : e.CanTravel) (hcopies : ∀ s ∈ e.ahead m, s.IsCopyable e.copyRoom) :
    (e.travel m).editor.CanTravel := by
  cases hahead : e.ahead m with
  | nil =>
    rw [travel_nil hahead]
    exact h
  | cons s rest =>
    obtain ⟨left, hsnapshot⟩ := h
    have hstill := still_travel hahead hsnapshot
    refine ⟨s, snapshot_eq_ok_iff.2 ⟨?_, ?_⟩⟩
    · have hmisfits : (e.travel m).editor.misfits = {} := congrArg Editor.misfits hstill
      rw [present_of_misfits hmisfits]
      exact congrArg Reading.ok (congrArg Editor.state hstill :)
    · rw [copyRoom_travel]
      exact hcopies s (by simp [hahead])

lemma HoldsCopies.ahead (h : e.HoldsCopies) (m : Travel) :
    ∀ s ∈ e.ahead m, s.IsCopyable e.copyRoom := by
  intro s hs
  cases m with
  | back => exact h s (List.mem_append_left _ hs)
  | forth => exact h s (List.mem_append_right _ hs)

lemma ok_mem_timeline_iff :
    .ok s ∈ e.timeline ↔ s ∈ e.past ++ e.future ∨ e.present = .ok s := by
  simp only [timeline, List.mem_append, List.mem_cons, List.mem_map, List.mem_reverse,
    Reading.ok.injEq, exists_eq_right, eq_comm (a := e.present)]
  tauto

/-- A step along the history moves copies from one stack to the other. -/
lemma HoldsCopies.travel (h : e.HoldsCopies) (m : Travel) : (e.travel m).editor.HoldsCopies := by
  intro s hs
  rw [copyRoom_travel]
  by_cases hcan : e.CanTravel
  · obtain ⟨left, hsnapshot⟩ := hcan
    obtain ⟨hpresent, hroom⟩ := snapshot_eq_ok_iff.1 hsnapshot
    have hline : .ok s ∈ e.timeline := timeline_travel e m ▸ ok_mem_timeline_iff.2 (.inl hs)
    rcases ok_mem_timeline_iff.1 hline with hkept | hnow
    · exact h s hkept
    · rwa [Reading.ok.inj (hnow.symm.trans hpresent)]
  · cases hahead : e.ahead m with
    | nil =>
      rw [travel_nil hahead] at hs
      exact h s hs
    | cons next rest =>
      rw [(travel_of_not_canTravel hcan (by simp [hahead])).2] at hs
      have hsame : e.beginApplying.past ++ e.beginApplying.future = e.past ++ e.future :=
        (congrArg (fun x : Editor => x.past ++ x.future) (still_beginApplying e) :)
      exact h s (hsame ▸ hs)

lemma cursor_travelAll_back (h : e.CanTravel) (hcopies : e.HoldsCopies) {n : Nat}
    (hn : n ≤ e.cursor) :
    (e.travelAll (List.replicate n .back)).CanTravel ∧
      (e.travelAll (List.replicate n .back)).HoldsCopies ∧
      (e.travelAll (List.replicate n .back)).cursor + n = e.cursor := by
  induction n generalizing e with
  | zero => exact ⟨h, hcopies, rfl⟩
  | succ n ih =>
    have hne : e.past ≠ [] := List.ne_nil_of_length_pos (by simp only [cursor] at hn; omega)
    have hstep := cursor_travel_back h hne
    have hn' : n ≤ (e.travel .back).editor.cursor := by omega
    obtain ⟨hcan, hcopies', hcursor⟩ :=
      ih (canTravel_travel h (hcopies.ahead .back)) (hcopies.travel .back) hn'
    refine ⟨hcan, hcopies', ?_⟩
    rw [List.replicate_succ, travelAll, List.foldl_cons]
    rw [travelAll] at hcursor
    omega

lemma cursor_travelAll_forth (h : e.CanTravel) (hcopies : e.HoldsCopies) {n : Nat}
    (hn : n ≤ e.future.length) :
    (e.travelAll (List.replicate n .forth)).cursor = e.cursor + n := by
  induction n generalizing e with
  | zero => rfl
  | succ n ih =>
    have hne : e.future ≠ [] := List.ne_nil_of_length_pos (by omega)
    have hstep := cursor_travel_forth h hne
    have hlength : (e.travel .forth).editor.cursor + (e.travel .forth).editor.future.length
        = e.cursor + e.future.length := by
      have := congrArg List.length (timeline_travel e .forth)
      rw [length_timeline, length_timeline] at this
      omega
    have hcursor := ih (canTravel_travel h (hcopies.ahead .forth)) (hcopies.travel .forth)
      (by omega : n ≤ (e.travel .forth).editor.future.length)
    rw [List.replicate_succ, travelAll, List.foldl_cons]
    rw [travelAll] at hcursor
    omega

lemma travelAll_append (e : Editor) (moves moves' : List Travel) :
    e.travelAll (moves ++ moves') = (e.travelAll moves).travelAll moves' :=
  List.foldl_append

/-- As many steps forth as back bring the present to its place again. -/
lemma cursor_travelAll_back_forth (hcopies : e.HoldsCopies) {n : Nat} (hn : n ≤ e.cursor) :
    (e.travelAll (List.replicate n .back ++ List.replicate n .forth)).cursor = e.cursor := by
  by_cases hcan : e.CanTravel
  · obtain ⟨hcan', hcopies', hback⟩ := cursor_travelAll_back hcan hcopies hn
    have hlength := congrArg List.length (timeline_travelAll e (List.replicate n .back))
    rw [length_timeline, length_timeline] at hlength
    rw [travelAll_append, cursor_travelAll_forth hcan' hcopies' (by omega)]
    exact hback
  · exact cursor_travelAll_of_not_canTravel hcan _

/-- Once the present is of the right kind, it stays so. -/
lemma misfits_travelAll (h : e.misfits = {}) (moves : List Travel) :
    (e.travelAll moves).misfits = {} := by
  induction moves generalizing e with
  | nil => exact h
  | cons m moves ih =>
    refine ih (e := (e.travel m).editor) ?_
    cases hahead : e.ahead m with
    | nil => rw [travel_nil hahead]; exact h
    | cons s rest =>
      by_cases hcan : e.CanTravel
      · obtain ⟨left, hsnapshot⟩ := hcan
        exact congrArg Editor.misfits (still_travel hahead hsnapshot)
      · rw [(travel_of_not_canTravel hcan (by simp [hahead])).2]
        exact (congrArg Editor.misfits (still_beginApplying e) :).trans h

lemma travel_answer_false_iff : (e.travel m).answer = .ok false ↔ e.ahead m = [] := by
  cases hahead : e.ahead m with
  | nil => simp [travel_nil hahead, done]
  | cons s rest =>
    simp only [reduceCtorEq, iff_false]
    by_cases hcan : e.CanTravel
    · obtain ⟨left, hsnapshot⟩ := hcan
      rw [travel_eq hahead hsnapshot, Outcome.answering_answer_ok]
      simp
    · obtain ⟨⟨f, hf⟩, -⟩ := travel_of_not_canTravel hcan (by simp [hahead] : e.ahead m ≠ [])
      simp [hf]

/-- What answers that a step was taken could take it. -/
lemma canTravel_of_answer (h : (e.travel m).answer = .ok true) :
    e.CanTravel ∧ e.ahead m ≠ [] := by
  have hne : e.ahead m ≠ [] := fun hnil => by
    rw [travel_answer_false_iff.2 hnil] at h
    cases h
  refine ⟨by_contra fun hcan => ?_, hne⟩
  obtain ⟨⟨f, hf⟩, -⟩ := travel_of_not_canTravel hcan hne
  rw [hf] at h
  cases h

end Editor

end Workflow
