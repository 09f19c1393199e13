import Workflow.Proofs.Editor.Comparing
import Workflow.Proofs.Editor.Upkeep
import Workflow.Proofs.Json.Dumping

/-!
# Stacks of copies

A state whose payloads are JSON documents can be copied. What history holds was copied as it was put
there. So in every session there is room to copy each of its states again, and undo and redo lead
back to where they came from.
-/

namespace Workflow

/-! ### Room for copies -/

section Room

variable {room : Nat} {v : Value} {vs : List Value} {ms : List (String × Value)}

lemma Value.depthOfItems_le_iff : depthOfItems vs ≤ room ↔ ∀ v ∈ vs, v.depth ≤ room := by
  induction vs with
  | nil => simp [depthOfItems]
  | cons v vs ih => simp [depthOfItems, ih]

lemma Value.depthOfMembers_le_iff : depthOfMembers ms ≤ room ↔ ∀ m ∈ ms, m.2.depth ≤ room := by
  induction ms with
  | nil => simp [depthOfMembers]
  | cons m ms ih => simp [depthOfMembers, ih]

/-- What can be written has no more levels than there is room for. -/
lemma Value.depth_le_of_dumps (h : v.Dumps room) : v.depth ≤ room := by
  induction room generalizing v with
  | zero => exact absurd h v.not_dumps_zero
  | succ room ih =>
    cases v with
    | list vs =>
      rw [depth, Nat.add_le_add_iff_right, depthOfItems_le_iff]
      exact fun v hv => ih (dumps_list_iff.1 h v hv)
    | object ms =>
      rw [depth, Nat.add_le_add_iff_right, depthOfMembers_le_iff]
      exact fun m hm => ih (dumps_object_iff.1 h m hm).2
    | _ => simp [depth]

lemma Value.depthOfMembers_le_of_dump {dumped : List (String × Value)}
    (h : dumpMembers room ms = .ok dumped) : depthOfMembers ms ≤ room :=
  depthOfMembers_le_iff.2 fun m hm => depth_le_of_dumps (dumpMembers_ok_iff.1 ⟨_, h⟩ m hm).2

lemma Payload.depth_le_of_dump {p : Payload} {data : Value} (h : p.dump = .ok data) :
    p.depth ≤ maxDepth := by
  cases hextras : Value.dumpMembers maxDepth p.extras with
  | error reason =>
    cases p with
    | start | transform => simp [dump, dumpWithin, hextras, bind, Except.bind] at h
    | finish d =>
      cases hreceived : d.received.dump maxDepth <;>
        simp [dump, dumpWithin, hextras, hreceived, bind, Except.bind] at h
  | ok dumped =>
    have hothers := Value.depthOfMembers_le_of_dump hextras
    cases p with
    | start | transform => exact hothers
    | finish d =>
      cases hreceived : d.received.dump maxDepth with
      | error reason => simp [dump, dumpWithin, hreceived, bind, Except.bind] at h
      | ok received => exact max_le (Value.depth_le_of_dumps ⟨received, hreceived⟩) hothers

/-- There is room to copy a state whose graph the recorder can see. -/
lemma EditorState.isCopyable_of_isVisible {s : EditorState} (h : s.graph.IsVisible)
    (room : CopyRoom) : s.IsCopyable room := by
  intro n hn
  obtain ⟨data, hdata⟩ := Graph.isVisible_iff.1 h n hn
  exact (Payload.depth_le_of_dump hdata).trans room.documents

end Room

namespace Editor

variable {e e' : Editor}

/-! ### Sessions -/

lemma HoldsCopies.congr (h : e.HoldsCopies) (hpast : e'.past = e.past)
    (hfuture : e'.future = e.future) (hroom : e'.copyRoom = e.copyRoom) : e'.HoldsCopies := by
  rw [HoldsCopies, hpast, hfuture, hroom]
  exact h

lemma HoldsCopies.announce (h : e.HoldsCopies) (change : Change) :
    (e.announce change).editor.HoldsCopies :=
  h.congr (congrArg Editor.past (still_announce e change) :)
    (congrArg Editor.future (still_announce e change) :)
    (congrArg Editor.copyRoom (still_announce e change) :)

lemma HoldsCopies.push (h : e.HoldsCopies) {s : EditorState} (hs : e.snapshot = .ok s) :
    (e.push s).HoldsCopies := by
  have hpushed : ∀ t ∈ s :: e.past, t.IsCopyable e.copyRoom :=
    List.forall_mem_cons.2
      ⟨(snapshot_eq_ok_iff.1 hs).2, fun t ht => h t (List.mem_append_left _ ht)⟩
  intro t ht
  simp only [Editor.push, List.append_nil] at ht
  split_ifs at ht
  · exact hpushed t (List.dropLast_subset _ ht)
  · exact hpushed t ht

lemma HoldsCopies.shift (h : e.HoldsCopies) {m : Travel} {left s : EditorState}
    {rest : List EditorState} (hleft : e.snapshot = .ok left) (hahead : e.ahead m = s :: rest) :
    (e.shift m left rest).HoldsCopies := by
  have hcopied : left.IsCopyable e.copyRoom := (snapshot_eq_ok_iff.1 hleft).2
  have hrest : ∀ t ∈ rest, t.IsCopyable e.copyRoom := fun t ht =>
    h.ahead m t (hahead ▸ List.mem_cons_of_mem s ht)
  cases m with
  | back =>
    have hfuture : ∀ t ∈ e.future, t.IsCopyable e.copyRoom := h.ahead .forth
    exact List.forall_mem_append.2 ⟨hrest, List.forall_mem_cons.2 ⟨hcopied, hfuture⟩⟩
  | forth =>
    have hpast : ∀ t ∈ e.past, t.IsCopyable e.copyRoom := h.ahead .back
    exact List.forall_mem_append.2 ⟨List.forall_mem_cons.2 ⟨hcopied, hpast⟩, hrest⟩

lemma keptByWork_holdsCopies : KeptByWork HoldsCopies := by
  refine .of_held (fun x x' heq h => ?_) (fun x value h => ?_) (fun x h => nofun)
    (fun x s h hs => h.push hs) fun x m left s rest h hleft hahead => ?_
  · exact h.congr (congrArg Editor.past heq :) (congrArg Editor.future heq :)
      (congrArg Editor.copyRoom heq :)
  · refine HoldsCopies.announce ?_ .executing
    exact h
  · refine HoldsCopies.announce ?_ .state
    exact h.shift hleft hahead

/-- In every session there is room to copy every state on the stacks. -/
theorem Reachable.holdsCopies (h : e.Reachable) : e.HoldsCopies := by
  induction h with
  | opened config autosaving epoch files room => exact nofun
  | @after x _ op ih =>
    by_cases hedit : op.IsEdit
    · have hedited := edited_perform (e := x) hedit
      generalize x.perform op = x' at hedited
      cases hedited with
      | kept serial => exact ih
      | announced serial hstep change =>
        refine HoldsCopies.announce ?_ change
        exact ih
    · refine keptByWork_holdsCopies.perform hedit (fun _ w _ hx => ?_) ih
      refine HoldsCopies.announce ?_ .state
      exact hx

/-! ### The timeline as a whole -/

/--
Undo and redo, in any order, leave the timeline as it is. A step that is taken moves the present by
one place, and one that is refused, for want of a state ahead, changes nothing. So in every session,
and wherever else history holds what can be copied, as many steps forth as back restore both stacks
and the present.
-/
theorem travelAll_along_timeline (e : Editor) :
    (∀ moves, (e.travelAll moves).timeline = e.timeline) ∧
    (e.undo.answer = .ok true → e.undo.editor.cursor + 1 = e.cursor) ∧
    (e.redo.answer = .ok true → e.redo.editor.cursor = e.cursor + 1) ∧
    (e.undo.answer = .ok false ↔ e.past = []) ∧
    (e.redo.answer = .ok false ↔ e.future = []) ∧
    (e.past = [] → e.undo.editor = e) ∧
    (e.future = [] → e.redo.editor = e) ∧
    (e.Reachable ∨ e.HoldsCopies → ∀ n ≤ e.past.length,
      let restored := e.travelAll (List.replicate n .back ++ List.replicate n .forth)
      restored.past = e.past ∧ restored.future = e.future ∧ restored.snapshot = e.snapshot ∧
        (e.misfits = {} → restored.misfits = {} ∧ restored.state = e.state)) := by
  refine ⟨timeline_travelAll e, fun h => ?_, fun h => ?_,
    travel_answer_false_iff (m := .back), travel_answer_false_iff (m := .forth), fun h => ?_,
    fun h => ?_, fun hcopies n hn => ?_⟩
  · obtain ⟨hcan, hne⟩ := canTravel_of_answer (m := .back) h
    exact cursor_travel_back hcan hne
  · obtain ⟨hcan, hne⟩ := canTravel_of_answer (m := .forth) h
    exact cursor_travel_forth hcan hne
  · exact congrArg Outcome.editor (travel_nil (m := .back) h)
  · exact congrArg Outcome.editor (travel_nil (m := .forth) h)
  · have hcopies' : e.HoldsCopies := hcopies.elim Reachable.holdsCopies id
    obtain ⟨hpast, hfuture, hpresent⟩ :=
      eq_of_timeline_eq (timeline_travelAll e _) (cursor_travelAll_back_forth hcopies' hn)
    refine ⟨hpast, hfuture, snapshot_congr hpresent (copyRoom_travelAll e _), fun hmisfits => ?_⟩
    have hmisfits' := misfits_travelAll hmisfits (List.replicate n .back ++ List.replicate n .forth)
    refine ⟨hmisfits', ?_⟩
    rw [present_of_misfits hmisfits, present_of_misfits hmisfits'] at hpresent
    exact Reading.ok.inj hpresent

end Editor

end Workflow
