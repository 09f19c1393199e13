import Workflow.Proofs.Editor.Delivery
import Workflow.Proofs.Number.Rounding

/-!
# States that can be told apart

History tells states apart by their fingerprints. A state has one exactly if all its nodes lie
somewhere finite and the recorder can see its graph, that is, if every payload is a JSON document.
-/

namespace Workflow

/-- Whether a position lies somewhere finite. -/
def Position.IsFinite (p : Position) : Prop :=
  Double.isFinite p.x = true ∧ Double.isFinite p.y = true

/-- Whether every node of a state lies somewhere finite. -/
def EditorState.IsFinite (s : EditorState) : Prop :=
  ∀ n ∈ s.graph.nodes, n.position.IsFinite

instance (p : Position) : Decidable p.IsFinite :=
  inferInstanceAs (Decidable (_ ∧ _))

instance (s : EditorState) : Decidable s.IsFinite :=
  inferInstanceAs (Decidable (∀ n ∈ s.graph.nodes, _))

/-- Whether the recorder can see a graph, as all payloads of its nodes are JSON documents. -/
def Graph.IsVisible (g : Graph) : Prop :=
  ∃ signals, g.signals = .ok signals

section Fingerprint

/-- A list is read without a failure if and only if all its items are. -/
lemma mapM_ok_iff {ε α β : Type} {read : α → Except ε β} {items : List α} :
    (∃ values, items.mapM read = .ok values) ↔ ∀ a ∈ items, ∃ b, read a = .ok b := by
  induction items with
  | nil => simp [pure, Except.pure]
  | cons a items ih =>
    rw [List.forall_mem_cons, ← ih, List.mapM_cons]
    constructor
    · rintro ⟨values, hvalues⟩
      cases ha : read a with
      | error reason => simp [ha, bind, Except.bind] at hvalues
      | ok b =>
        cases hitems : items.mapM read with
        | error reason => simp [ha, hitems, bind, Except.bind] at hvalues
        | ok rest => exact ⟨⟨b, rfl⟩, rest, rfl⟩
    · rintro ⟨⟨b, hb⟩, rest, hrest⟩
      exact ⟨b :: rest, by simp [hb, hrest, bind, Except.bind, pure, Except.pure]⟩

lemma Graph.isVisible_iff {g : Graph} :
    g.IsVisible ↔ ∀ n ∈ g.nodes, ∃ data, n.payload.dump = .ok data := by
  rw [← mapM_ok_iff, IsVisible]
  simp only [signals]
  cases hpayloads : g.nodes.mapM fun n => n.payload.dump <;> simp [bind, Except.bind]

lemma Node.simplified_ok_iff {n : Node} : (∃ v, n.simplified = .ok v) ↔
    n.position.IsFinite ∧ ∃ data, n.payload.dump = .ok data := by
  rw [Position.IsFinite, ← Double.exists_roundHalfUp_iff, ← Double.exists_roundHalfUp_iff]
  cases hx : roundHalfUp n.position.x <;> cases hy : roundHalfUp n.position.y <;>
    cases hdata : n.payload.dump <;>
      simp [simplified, hx, hy, hdata, Except.mapError, bind, Except.bind]

/-- A state has a fingerprint if and only if it is finite and its graph can be seen. -/
lemma EditorState.fingerprint_ok_iff {s : EditorState} :
    (∃ text, s.fingerprint = .ok text) ↔ s.IsFinite ∧ s.graph.IsVisible := by
  have hnodes : (∃ nodes, s.graph.nodes.mapM Node.simplified = .ok nodes) ↔
      s.IsFinite ∧ s.graph.IsVisible := by
    rw [mapM_ok_iff, Graph.isVisible_iff, IsFinite, ← forall₂_and]
    exact forall₂_congr fun n _ => Node.simplified_ok_iff
  rw [← hnodes, fingerprint]
  cases s.graph.nodes.mapM Node.simplified <;> simp [bind, Except.bind]

lemma EditorState.exists_fingerprint_iff {s : EditorState} (h : s.IsFinite) :
    (∃ text, s.fingerprint = .ok text) ↔ s.graph.IsVisible :=
  fingerprint_ok_iff.trans (and_iff_right h)

end Fingerprint

namespace Editor

/-- Whether the newest state of history cannot be seen, so that nothing can be compared to it. -/
def Clouded (e : Editor) : Prop :=
  ∃ newest older, e.past = newest :: older ∧ ¬newest.graph.IsVisible

section Clouded

variable {e : Editor} {s : EditorState}

/-- It is not new if it has the fingerprint of the newest one. -/
lemma unchanged_eq_true_iff : e.unchanged s = .ok true ↔ ∃ newest ∈ e.past.head?, ∃ text,
    s.fingerprint = .ok text ∧ newest.fingerprint = .ok text := by
  cases hpast : e.past with
  | nil => simp [unchanged, hpast]
  | cons newest older =>
    cases htext : s.fingerprint <;> cases hbefore : newest.fingerprint <;>
      simp [unchanged, hpast, htext, hbefore, bind, Except.bind, eq_comm]

/-- What can be compared is recorded unless its fingerprint is that of the newest state. -/
lemma exists_unchanged_eq (h : ¬e.Clouded) (hfinite : ∀ newest ∈ e.past.head?, newest.IsFinite)
    {text : String} (htext : s.fingerprint = .ok text) :
    ∃ same, e.unchanged s = .ok same ∧
      (same = true ↔ ∃ newest older, e.past = newest :: older ∧ newest.fingerprint = .ok text) := by
  cases hpast : e.past with
  | nil => exact ⟨false, by simp [unchanged, hpast], by simp⟩
  | cons newest older =>
    have hvisible : newest.graph.IsVisible := by
      by_contra hhidden
      exact h ⟨newest, older, hpast, hhidden⟩
    rw [← EditorState.exists_fingerprint_iff (hfinite newest (by simp [hpast]))] at hvisible
    obtain ⟨text', htext'⟩ := hvisible
    refine ⟨text = text', by simp [unchanged, hpast, htext, htext', bind, Except.bind], ?_⟩
    simp [htext', eq_comm]

end Clouded

end Editor

end Workflow
