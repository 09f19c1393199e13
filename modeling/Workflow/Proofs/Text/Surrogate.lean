import Mathlib.Tactic
import Workflow.Text.Surrogate

/-!
# Texts without half a surrogate pair

A character that is neither a mark nor a stand-in separates a text into two that do not depend on
each other. So a text that is joined from others at such characters has no half of a surrogate pair
but theirs.
-/

namespace Workflow.Text

/-! ### Plain characters -/

/-- A character that is neither a mark nor a stand-in. -/
structure IsPlain (c : Char) : Prop where
  mark : c ≠ surrogateMark
  standIn : standsFor? c = none

lemma isPlain_of_lt {c : Char} (h : c.toNat < 0x5d800) : IsPlain c := by
  constructor
  · rintro rfl
    exact absurd h (by decide)
  · rw [standsFor?, dif_neg (by omega)]

lemma charsAfter_cons {c : Char} (hc : IsPlain c) (marks : Nat) (ps : List Part) :
    charsAfter marks (.char c :: ps)
      = List.replicate marks surrogateMark ++ c :: charsAfter 0 ps := by
  rw [charsAfter, if_neg hc.mark, hc.standIn]

/-- A plain character separates a text into two. -/
lemma charsAfter_append_cons {c : Char} (hc : IsPlain c) (marks : Nat) (ps qs : List Part) :
    charsAfter marks (ps ++ .char c :: qs) = charsAfter marks ps ++ c :: charsAfter 0 qs := by
  induction ps generalizing marks with
  | nil =>
    rw [List.nil_append, charsAfter_cons hc]
    rfl
  | cons p ps ih =>
    cases p with
    | char c' =>
      rw [List.cons_append, charsAfter, charsAfter]
      split_ifs
      · exact ih _
      · split <;> rw [ih, List.append_assoc, List.cons_append]
    | half n =>
      rw [List.cons_append, charsAfter, charsAfter, ih, List.append_assoc, List.cons_append]

/-- Plain characters at the start of a text stand for themselves. -/
lemma charsAfter_append_of_isPlain {cs : List Char} (hcs : ∀ c ∈ cs, IsPlain c) (ps : List Part) :
    charsAfter 0 (cs.map .char ++ ps) = cs ++ charsAfter 0 ps := by
  induction cs with
  | nil => rfl
  | cons c cs ih =>
    obtain ⟨hc, hcs⟩ := List.forall_mem_cons.1 hcs
    rw [List.map_cons, List.cons_append, charsAfter_cons hc, ih hcs]
    rfl

/-- The characters of a text are its parts and marks. -/
lemma mem_charsAfter {c : Char} {marks : Nat} {cs : List Char}
    (h : c ∈ charsAfter marks (cs.map .char)) : c = surrogateMark ∨ c ∈ cs := by
  induction cs generalizing marks with
  | nil => exact .inl (List.eq_of_mem_replicate h)
  | cons c' cs ih =>
    have hothers : c = surrogateMark ∨ c ∈ cs → c = surrogateMark ∨ c ∈ c' :: cs :=
      Or.imp_right (List.mem_cons_of_mem c')
    rw [List.map_cons, charsAfter] at h
    split_ifs at h
    · exact hothers (ih h)
    · split at h
      all_goals
        rcases List.mem_append.1 h with hmark | h
        · exact .inl (List.eq_of_mem_replicate hmark)
        · rcases List.mem_cons.1 h with rfl | h
          · exact .inr List.mem_cons_self
          · exact hothers (ih h)

/-! ### Texts of characters -/

/-- Parts without half a surrogate pair are characters. -/
lemma eq_map_shown {ps : List Part} (h : ps.any Part.isHalf = false) :
    ps = (ps.map Part.shown).map .char := by
  induction ps with
  | nil => rfl
  | cons p ps ih =>
    rw [List.any_cons, Bool.or_eq_false_iff] at h
    rw [List.map_cons, List.map_cons, ← ih h.2]
    cases p with
    | char c => rfl
    | half n => exact absurd h.1 (by simp [Part.isHalf])

/-- A text without half a surrogate pair is what its characters represent. -/
lemma ofChars_shown {s : String} (h : hasHalf s = false) : ofChars (shown s).toList = s := by
  rw [ofChars, shown, String.toList_ofList, ← eq_map_shown h, ofParts_parts]

lemma partsAfter_cons {c : Char} (hc : IsPlain c) (marks : Nat) (cs : List Char) :
    partsAfter marks (c :: cs)
      = List.replicate marks (.char surrogateMark) ++ .char c :: partsAfter 0 cs := by
  rw [partsAfter, if_neg hc.mark, hc.standIn]

lemma partsAfter_append_cons {c : Char} (hc : IsPlain c) (marks : Nat) (cs ds : List Char) :
    partsAfter marks (cs ++ c :: ds) = partsAfter marks cs ++ .char c :: partsAfter 0 ds := by
  induction cs generalizing marks with
  | nil =>
    rw [List.nil_append, partsAfter_cons hc]
    rfl
  | cons c' cs ih =>
    rw [List.cons_append, partsAfter, partsAfter]
    split_ifs
    · exact ih _
    all_goals split <;> rw [ih, List.append_assoc, List.cons_append]

/--
Characters that represent the same parts whatever follows them, and no half of a surrogate pair.
-/
structure IsClosed (cs : List Char) : Prop where
  parts_append : ∀ rest, partsAfter 0 (cs ++ rest) = partsAfter 0 cs ++ partsAfter 0 rest
  whole : (partsAfter 0 cs).any Part.isHalf = false

section IsClosed

variable {cs ds : List Char}

lemma IsClosed.append (hcs : IsClosed cs) (hds : IsClosed ds) : IsClosed (cs ++ ds) := by
  constructor
  · intro rest
    rw [List.append_assoc, hcs.parts_append, hds.parts_append, hcs.parts_append, List.append_assoc]
  · rw [hcs.parts_append, List.any_append, hcs.whole, hds.whole]
    rfl

lemma isClosed_of_isPlain (h : ∀ c ∈ cs, IsPlain c) : IsClosed cs := by
  induction cs with
  | nil => exact ⟨fun _ => rfl, rfl⟩
  | cons c cs ih =>
    obtain ⟨hc, hcs⟩ := List.forall_mem_cons.1 h
    have hsingle : ∀ rest, partsAfter 0 (c :: rest) = .char c :: partsAfter 0 rest :=
      partsAfter_cons hc 0
    constructor
    · intro rest
      rw [List.cons_append, hsingle, hsingle, (ih hcs).parts_append]
      rfl
    · rw [hsingle, List.any_cons, (ih hcs).whole]
      rfl

/-- The characters of a text between two plain ones are closed if the text has characters only. -/
lemma isClosed_between {first last : Char} (hfirst : IsPlain first) (hlast : IsPlain last)
    (cs : List Char) : IsClosed (first :: (charsAfter 0 (cs.map .char) ++ [last])) := by
  have hparts : ∀ rest, partsAfter 0 (first :: (charsAfter 0 (cs.map .char) ++ last :: rest))
      = .char first :: (cs.map .char ++ .char last :: partsAfter 0 rest) := by
    intro rest
    rw [partsAfter_cons hfirst, partsAfter_append_cons hlast, partsAfter_charsAfter]
    rfl
  constructor
  · intro rest
    rw [hparts, List.cons_append, List.append_assoc, List.singleton_append, hparts]
    simp [partsAfter]
  · rw [hparts]
    simp [Part.isHalf, partsAfter]

lemma isClosed_flatMap {α : Type} {as : List α} {f : α → List Char}
    (h : ∀ a ∈ as, IsClosed (f a)) : IsClosed (as.flatMap f) := by
  induction as with
  | nil => exact isClosed_of_isPlain (List.forall_mem_nil _)
  | cons a as ih =>
    obtain ⟨ha, has⟩ := List.forall_mem_cons.1 h
    rw [List.flatMap_cons]
    exact ha.append (ih has)

end IsClosed

end Workflow.Text
