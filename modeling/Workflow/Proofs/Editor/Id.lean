import Mathlib.Data.List.Basic
import Mathlib.Tactic
import Workflow.Editor.Operation

/-!
# Ids that an editor gives out

The id of a new node is made of its type, the time and a tag, joined by hyphens. As only the time
may hold a hyphen, and only as its sign, such an id can be told apart from whatever follows it, and
so the id of an edge tells both ends of the edge.
-/

namespace Workflow

/-! ### Texts joined by hyphens -/

lemma append_hyphen_inj {as bs xs ys : List Char} (has : '-' ∉ as) (hbs : '-' ∉ bs)
    (h : as ++ '-' :: xs = bs ++ '-' :: ys) : as = bs ∧ xs = ys := by
  induction as generalizing bs with
  | nil =>
    cases bs with
    | nil => simpa using h
    | cons b bs => exact absurd (List.cons.inj h).1 (List.ne_of_not_mem_cons hbs)
  | cons a as ih =>
    cases bs with
    | nil => exact absurd (List.cons.inj h).1.symm (List.ne_of_not_mem_cons has)
    | cons b bs =>
      obtain ⟨rfl, hrest⟩ := List.cons.inj h
      obtain ⟨rfl, hxs⟩ :=
        ih (List.not_mem_of_not_mem_cons has) (List.not_mem_of_not_mem_cons hbs) hrest
      exact ⟨rfl, hxs⟩

lemma hyphen_not_mem_repr (n : Nat) : '-' ∉ n.repr.toList := by
  rw [Nat.toList_repr]
  exact fun h => absurd (Nat.isDigit_of_mem_toDigits (by decide) (by decide) h) (by decide)

lemma hyphen_not_mem_name (t : NodeType) : '-' ∉ t.name.toList := by
  cases t <;> decide

lemma hyphen_not_mem_serialText (n : Nat) : '-' ∉ (Editor.serialText n).toList := by
  have hdigits := hyphen_not_mem_repr n
  rw [Nat.toList_repr] at hdigits
  simp [Editor.serialText, hdigits]

lemma repr_append_ne (n : Nat) (xs ys : List Char) : n.repr.toList ++ xs ≠ '-' :: ys := by
  intro h
  cases hn : n.repr.toList with
  | nil => simp at hn
  | cons c cs =>
    rw [hn, List.cons_append, List.cons.injEq] at h
    exact hyphen_not_mem_repr n (by simp [hn, h.1])

/-- A number can be told apart from what follows it after a hyphen, even if it has a sign. -/
lemma toString_append_hyphen_inj {a b : Int} {xs ys : List Char}
    (h : (toString a).toList ++ '-' :: xs = (toString b).toList ++ '-' :: ys) :
    toString a = toString b ∧ xs = ys := by
  have hsplit := fun m n : Nat =>
    @append_hyphen_inj _ _ xs ys (hyphen_not_mem_repr m) (hyphen_not_mem_repr n)
  have hneg : ∀ n : Nat, (toString (Int.negSucc n)).toList = '-' :: (n + 1).repr.toList := by
    intro n
    simp [toString, Int.repr]
  cases a with
  | ofNat n =>
    cases b with
    | ofNat m =>
      obtain ⟨hn, hxs⟩ := hsplit n m h
      exact ⟨String.toList_inj.1 hn, hxs⟩
    | negSucc m =>
      rw [hneg] at h
      exact absurd h (repr_append_ne n _ _)
  | negSucc n =>
    cases b with
    | ofNat m =>
      rw [hneg] at h
      exact absurd h.symm (repr_append_ne m _ _)
    | negSucc m =>
      rw [hneg, hneg] at h
      obtain ⟨hn, hxs⟩ := hsplit (n + 1) (m + 1) (List.cons.inj h).2
      refine ⟨String.toList_inj.1 ?_, hxs⟩
      rw [hneg, hneg, hn]

/-! ### Ids of nodes -/

/-- The id made of a type, a time and a tag. -/
def joinId (t : NodeType) (time : Int) (tag : String) : String :=
  t.name ++ "-" ++ toString time ++ "-" ++ tag

/-- An id as an editor gives it out: its tag has no hyphen. -/
def IsGiven (id : String) : Prop :=
  ∃ t time tag, '-' ∉ tag.toList ∧ id = joinId t time tag

lemma isGiven_nextId (e : Editor) (t : NodeType) : IsGiven (e.nextId t) :=
  ⟨t, e.time, Editor.serialText (e.serial + 1), hyphen_not_mem_serialText _, rfl⟩

lemma toList_joinId (t : NodeType) (time : Int) (tag : String) :
    (joinId t time tag).toList
      = t.name.toList ++ '-' :: ((toString time).toList ++ '-' :: tag.toList) := by
  simp [joinId]

/-- An id that is given out can be told apart from what follows it after a hyphen. -/
lemma IsGiven.append_hyphen_inj {id id' : String} {xs ys : List Char} (h : IsGiven id)
    (h' : IsGiven id') (heq : id.toList ++ '-' :: xs = id'.toList ++ '-' :: ys) :
    id = id' ∧ xs = ys := by
  obtain ⟨t, time, tag, htag, rfl⟩ := h
  obtain ⟨t', time', tag', htag', rfl⟩ := h'
  simp only [toList_joinId, List.append_assoc, List.cons_append] at heq
  obtain ⟨hname, heq⟩ :=
    Workflow.append_hyphen_inj (hyphen_not_mem_name t) (hyphen_not_mem_name t') heq
  obtain ⟨htime, heq⟩ := toString_append_hyphen_inj heq
  obtain ⟨htag, hrest⟩ := Workflow.append_hyphen_inj htag htag' heq
  rw [joinId, joinId, String.toList_inj.1 hname, htime, String.toList_inj.1 htag]
  exact ⟨rfl, hrest⟩

/-! ### Ids of edges -/

/-- The id of an edge from a node whose id was given out tells both its ends. -/
lemma makeId_inj {source source' target target' : String} (h : IsGiven source)
    (h' : IsGiven source')
    (heq : Edge.makeId source target = Edge.makeId source' target') :
    source = source' ∧ target = target' := by
  have hlist : source.toList ++ '-' :: target.toList = source'.toList ++ '-' :: target'.toList := by
    simpa [Edge.makeId] using congrArg String.toList heq
  obtain ⟨hsource, htarget⟩ := h.append_hyphen_inj h' hlist
  exact ⟨hsource, String.toList_inj.1 htarget⟩

end Workflow
