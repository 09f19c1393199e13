import Workflow.Graph.Dump
import Workflow.Proofs.Json.Found

/-!
# Files that can be written again

What is read from a workflow file is nested less deep than what is written into one may be, and no
name in it has half a surrogate pair. So it can be written again, whatever the file holds.
-/

namespace Workflow

open Text

namespace Value

variable {room more : Nat} {v : Value} {vs : List Value} {ms : List (String × Value)}

/-- Whether a value can be part of a JSON document with room for some levels. -/
def Dumps (room : Nat) (v : Value) : Prop :=
  ∃ dumped, v.dump room = .ok dumped

lemma dumpItems_ok_iff : (∃ dumped, dumpItems room vs = .ok dumped) ↔ ∀ v ∈ vs, v.Dumps room := by
  induction vs with
  | nil => simp [dumpItems]
  | cons v vs ih =>
    rw [List.forall_mem_cons, ← ih, dumpItems, Dumps]
    cases v.dump room <;> cases dumpItems room vs <;> simp [bind, Except.bind]

lemma dumpMembers_ok_iff : (∃ dumped, dumpMembers room ms = .ok dumped) ↔
    ∀ m ∈ ms, hasHalf m.1 = false ∧ m.2.Dumps room := by
  induction ms with
  | nil => simp [dumpMembers]
  | cons m ms ih =>
    rw [List.forall_mem_cons, ← ih, dumpMembers, Dumps]
    cases hasHalf m.1 <;> cases m.2.dump room <;> cases dumpMembers room ms <;>
      simp [bind, Except.bind, throw, throwThe, MonadExceptOf.throw]

lemma dumps_list_iff : (list vs).Dumps (room + 1) ↔ ∀ v ∈ vs, v.Dumps room := by
  rw [← dumpItems_ok_iff, Dumps, dump, if_neg room.succ_ne_zero, Nat.add_sub_cancel]
  cases dumpItems room vs <;> simp [Except.map]

lemma dumps_object_iff :
    (object ms).Dumps (room + 1) ↔ ∀ m ∈ ms, hasHalf m.1 = false ∧ m.2.Dumps room := by
  rw [← dumpMembers_ok_iff, Dumps, dump, if_neg room.succ_ne_zero, Nat.add_sub_cancel]
  cases dumpMembers room ms <;> simp [Except.map]

lemma not_dumps_zero (v : Value) : ¬v.Dumps 0 := by
  rintro ⟨dumped, h⟩
  cases v <;> cases h

lemma Dumps.succ (h : v.Dumps room) : v.Dumps (room + 1) := by
  induction room generalizing v with
  | zero => exact absurd h v.not_dumps_zero
  | succ room ih =>
    cases v with
    | list vs => exact dumps_list_iff.2 fun v hv => ih (dumps_list_iff.1 h v hv)
    | object ms =>
      exact dumps_object_iff.2 fun m hm => (dumps_object_iff.1 h m hm).imp_right ih
    | _ => exact ⟨_, rfl⟩

/-- What fits into some room fits into more. -/
lemma Dumps.mono (h : v.Dumps room) (hle : room ≤ more) : v.Dumps more :=
  Nat.le_induction h (fun _ _ => .succ) more hle

/-- What is found in a file takes up a level more than the reader went down for it. -/
lemma IsFound.dumps (h : v.IsFound room) : v.Dumps (room + 1) := by
  induction h with
  | null | bool | int | float | str => exact ⟨_, rfl⟩
  | noItems | noMembers => exact ⟨_, rfl⟩
  | list _ ih => exact dumps_list_iff.2 ih
  | object _ hbroken _ ih => exact dumps_object_iff.2 fun m hm => ⟨hbroken m hm, ih m hm⟩

end Value

/-- What is read from the characters of a workflow file can be written again. -/
theorem Json.dumps_of_read {cs : List Char} {v : Value}
    (h : Json.read .file (ofChars cs) = .ok v) : v.Dumps 201 :=
  (Json.isFound_of_read h).dumps

end Workflow
