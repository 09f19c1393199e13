import Workflow.Proofs.Editor.Upkeep
import Workflow.Proofs.Editor.Waiting

/-!
# The states that an editor holds

An editor holds the present state and those of its history. In a session in which only some
operations are used, all of them have in common what each edit keeps.
-/

namespace Workflow

namespace Editor

/-! ### Sessions of a kind -/

/--
The editors that a session can come to in which only some operations are used. At any time calls may
come through, the time of day may be set, and the ids of nodes may go on with another number.
-/
inductive ReachableBy (allowed : Editor → Operation → Prop) : Editor → Prop where
  | opened (config : Config) (autosaving : Bool) (epoch : Int) (files : Files) (room : CopyRoom) :
      ReachableBy allowed { new config autosaving epoch with files := files, copyRoom := room }
  | after {e : Editor} (h : ReachableBy allowed e) (op : Operation) (hop : allowed e op) :
      ReachableBy allowed (e.perform op)
  | undergone {e : Editor} (h : ReachableBy allowed e) (event : Event) :
      ReachableBy allowed (e.undergo event)
  | reset {e : Editor} (h : ReachableBy allowed e) (epoch : Int) (serial : Nat) :
      ReachableBy allowed { e with epoch := epoch, serial := serial }

section ReachableBy

variable {allowed allowed' : Editor → Operation → Prop} {e : Editor}

lemma ReachableBy.mono (hmono : ∀ x op, allowed x op → allowed' x op)
    (h : e.ReachableBy allowed) : e.ReachableBy allowed' := by
  induction h with
  | opened config autosaving epoch files room => exact .opened config autosaving epoch files room
  | after _ op hop ih => exact ih.after op (hmono _ op hop)
  | undergone _ event ih => exact ih.undergone event
  | reset _ epoch serial ih => exact ih.reset epoch serial

/-- What work keeps, and what the edits of a session keep, holds all along the session. -/
lemma ReachableBy.kept {P : Editor → Prop} (hwork : KeptByWork P)
    (hopened : ∀ config autosaving epoch files room,
      P { new config autosaving epoch with files := files, copyRoom := room })
    (hedited : ∀ x op x', allowed x op → P x → x.Edited op x' → P x')
    (hload : ∀ x w, allowed x .load → x.stored = .ok (some w) → P x.beginAction →
      P (x.beginAction.importExport w).editor)
    (hreset : ∀ x epoch serial, P x → P { x with epoch := epoch, serial := serial })
    (h : e.ReachableBy allowed) : P e := by
  induction h with
  | opened config autosaving epoch files room => exact hopened config autosaving epoch files room
  | @after x _ op hop ih =>
    by_cases hedit : op.IsEdit
    · exact hedited x op _ hop ih (edited_perform hedit)
    · exact hwork.perform hedit (fun heq w => hload x w (heq ▸ hop)) ih
  | undergone _ event ih =>
    cases event with
    | time span => exact hwork.advance ih span
    | call call => exact hwork.deliver ih call
  | reset _ epoch serial ih => exact hreset _ epoch serial ih

end ReachableBy

/-! ### The states that an editor holds -/

/-- The states that an editor holds: the present one, and those of its history. -/
def states (e : Editor) : List EditorState :=
  e.state :: (e.past ++ e.future)

/-- What is said of the misfits of an editor, and of every state that it holds. -/
structure Holds (M : Misfits → Prop) (P : EditorState → Prop) (e : Editor) : Prop where
  misfits : M e.misfits
  states : ∀ s ∈ e.states, P s

/-- What is said of misfits and states whatever the executing flag is, and of snapshots too. -/
structure Steady (M : Misfits → Prop) (P : EditorState → Prop) : Prop where
  none : M {}
  executing : ∀ m, M m → M { m with executing := .none }
  flag : ∀ s value, P s → P { s with executing := value }
  snapshot : ∀ (e : Editor) s, M e.misfits → P e.state → e.snapshot = .ok s → P s

section Holds

variable {M : Misfits → Prop} {P : EditorState → Prop} {e e' : Editor}

lemma holds_iff : e.Holds M P ↔
    M e.misfits ∧ P e.state ∧ (∀ s ∈ e.past, P s) ∧ ∀ s ∈ e.future, P s := by
  have hall : (∀ s ∈ e.states, P s) ↔
      P e.state ∧ (∀ s ∈ e.past, P s) ∧ ∀ s ∈ e.future, P s := by
    simp only [Editor.states, List.mem_cons, List.mem_append, or_imp, forall_and, forall_eq]
  exact ⟨fun h => ⟨h.misfits, hall.1 h.states⟩, fun h => ⟨h.1, hall.2 h.2⟩⟩

lemma Holds.state (h : e.Holds M P) : P e.state :=
  (holds_iff.1 h).2.1

lemma Holds.of_held (h : e.Holds M P) (heq : e'.held = e.held) : e'.Holds M P := by
  have hmisfits : e'.misfits = e.misfits := (congrArg Editor.misfits heq :)
  have hstates : e'.states = e.states := (congrArg Editor.states heq :)
  exact ⟨hmisfits ▸ h.misfits, hstates ▸ h.states⟩

/-- A new state that is announced joins those of the history. -/
lemma Holds.announce (h : e.Holds M P) {serial : Nat} {state : EditorState} {misfits : Misfits}
    (hmisfits : M misfits) (hstate : P state) (change : Change) :
    ({ e with serial := serial, state := state, misfits := misfits }.announce
      change).editor.Holds M P := by
  obtain ⟨-, -, hpast, hfuture⟩ := holds_iff.1 h
  refine Holds.of_held ?_ (held_of_still (still_announce _ change))
  exact holds_iff.2 ⟨hmisfits, hstate, hpast, hfuture⟩

lemma Holds.push (h : e.Holds M P) {s : EditorState} (hs : P s) : (e.push s).Holds M P := by
  obtain ⟨hmisfits, hstate, hpast, -⟩ := holds_iff.1 h
  have hpushed : ∀ s' ∈ s :: e.past, P s' := List.forall_mem_cons.2 ⟨hs, hpast⟩
  refine holds_iff.2 ⟨hmisfits, hstate, fun s' hs' => ?_, nofun⟩
  simp only [Editor.push] at hs'
  split_ifs at hs'
  · exact hpushed s' (List.dropLast_subset _ hs')
  · exact hpushed s' hs'

lemma Holds.shift (h : e.Holds M P) {m : Travel} {left s : EditorState} {rest : List EditorState}
    (hleft : P left) (hahead : e.ahead m = s :: rest) : (e.shift m left rest).Holds M P ∧ P s := by
  obtain ⟨hmisfits, hstate, hpast, hfuture⟩ := holds_iff.1 h
  cases m with
  | back =>
    have hsplit : P s ∧ ∀ s' ∈ rest, P s' := List.forall_mem_cons.1 (hahead ▸ hpast)
    exact ⟨holds_iff.2
      ⟨hmisfits, hstate, hsplit.2, List.forall_mem_cons.2 ⟨hleft, hfuture⟩⟩, hsplit.1⟩
  | forth =>
    have hsplit : P s ∧ ∀ s' ∈ rest, P s' := List.forall_mem_cons.1 (hahead ▸ hfuture)
    exact ⟨holds_iff.2
      ⟨hmisfits, hstate, List.forall_mem_cons.2 ⟨hleft, hpast⟩, hsplit.2⟩, hsplit.1⟩

lemma keptByWork_holds (hsteady : Steady M P) : KeptByWork (Holds M P) := by
  refine .of_held (fun _ _ heq h => h.of_held heq) (fun e value h => ?_) (fun e h => ?_)
    (fun e s h hs => ?_) fun e m left s rest h hleft hahead => ?_
  · exact h.announce (hsteady.executing _ h.misfits) (hsteady.flag _ value h.state) .executing
  · exact holds_iff.2 ⟨h.misfits, h.state, nofun, nofun⟩
  · exact h.push (hsteady.snapshot e s h.misfits h.state hs)
  · obtain ⟨hshifted, hs⟩ := h.shift (hsteady.snapshot e left h.misfits h.state hleft) hahead
    exact hshifted.announce hsteady.none hs .state

/-- What each step of a session keeps, the editor holds all along the session. -/
lemma ReachableBy.holds {allowed : Editor → Operation → Prop} (hsteady : Steady M P)
    (hempty : P {})
    (hstep : ∀ x op state misfits, allowed x op → x.Holds M P → x.Step op state misfits →
      M misfits ∧ P state)
    (hload : ∀ x w, allowed x .load → x.stored = .ok (some w) → P { graph := w.graph })
    (h : e.ReachableBy allowed) : e.Holds M P := by
  refine h.kept (keptByWork_holds hsteady) (fun _ _ _ _ _ => ?_) (fun x op x' hop hx hedited => ?_)
    (fun x w hop hw hx => hx.announce hsteady.none (hload x w hop hw) .state)
    fun _ _ _ hx => ⟨hx.misfits, hx.states⟩
  · exact holds_iff.2 ⟨hsteady.none, hempty, nofun, nofun⟩
  · cases hedited with
    | kept serial => exact ⟨hx.misfits, hx.states⟩
    | announced serial hstepped change =>
      obtain ⟨hmisfits, hstate⟩ := hstep x op _ _ hop hx hstepped
      exact hx.announce hmisfits hstate change

end Holds

end Editor

end Workflow
