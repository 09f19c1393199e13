import Mathlib.Data.List.TakeWhile
import Workflow.Json.Reader

/-!
# What a reader passes

Between strings and brackets, a reader passes blanks and the characters of words and numbers. In an
escape it passes hexadecimal digits.
-/

namespace Workflow

namespace Json

open Text

/-- From some characters to others: something holds of each one between them. -/
def Passes (P : Char → Prop) (cs after : List Char) : Prop :=
  ∃ passed, cs = passed ++ after ∧ ∀ c ∈ passed, P c

/-- The characters between strings and brackets that a reader passes. -/
inductive IsToken (D : Dialect) : Char → Prop where
  | blank {c : Char} (h : isBlank c = true) : IsToken D c
  | digit {c : Char} (h : c.isDigit = true) : IsToken D c
  | ordinary {c : Char}
      (h : c ∈ ['+', '-', '.', 'e', 'E', 'n', 'u', 'l', 't', 'r', 'f', 'a', 's']) : IsToken D c
  /-- Only in the words for non-finite numbers. -/
  | nonFinite {c : Char} (hD : D.nonFinite = true) (h : c ∈ ['N', 'I', 'i', 'y']) : IsToken D c

/-- A hexadecimal digit. -/
def IsHexDigit (c : Char) : Prop :=
  ∃ n, hexValue? c = some n

section Passes

variable {P Q : Char → Prop} {D : Dialect} {c : Char} {cs after after' : List Char}

lemma Passes.refl (cs : List Char) : Passes P cs cs :=
  ⟨[], rfl, nofun⟩

lemma Passes.trans (h : Passes P cs after) (h' : Passes P after after') : Passes P cs after' := by
  obtain ⟨passed, rfl, hpassed⟩ := h
  obtain ⟨passed', rfl, hpassed'⟩ := h'
  exact ⟨passed ++ passed', (List.append_assoc ..).symm,
    List.forall_mem_append.2 ⟨hpassed, hpassed'⟩⟩

lemma Passes.mono (h : Passes P cs after) (himp : ∀ c, P c → Q c) : Passes Q cs after := by
  obtain ⟨passed, rfl, hpassed⟩ := h
  exact ⟨passed, rfl, fun c hc => himp c (hpassed c hc)⟩

lemma passes_append {passed : List Char} (h : ∀ c ∈ passed, P c) :
    Passes P (passed ++ after) after :=
  ⟨passed, rfl, h⟩

lemma Passes.cons (h : Passes P cs after) (hc : P c) : Passes P (c :: cs) after := by
  obtain ⟨passed, rfl, hpassed⟩ := h
  exact ⟨c :: passed, rfl, List.forall_mem_cons.2 ⟨hc, hpassed⟩⟩

lemma passes_dropWhile {p : Char → Bool} (cs : List Char) :
    Passes (fun c => p c = true) cs (cs.dropWhile p) :=
  ⟨cs.takeWhile p, (List.takeWhile_append_dropWhile ..).symm, fun _ => List.mem_takeWhile_imp⟩

/-! ### Characters -/

lemma toNat_of_isDigit (h : c.isDigit = true) : c.toNat < 0x80 := by
  have hle : c.toNat ≤ '9'.toNat := by
    simp only [Char.isDigit, Bool.and_eq_true, decide_eq_true_eq] at h
    exact UInt32.le_iff_toNat_le.1 h.2
  exact hle.trans_lt (by decide)

lemma isBlank_iff : isBlank c = true ↔ c ∈ [' ', '\t', '\n', '\r'] := by
  simp [isBlank, or_assoc]

lemma toNat_of_mem_ascii (hcs : cs.all fun c => decide (c.toNat < 0x80)) (hc : c ∈ cs) :
    c.toNat < 0x80 :=
  of_decide_eq_true (List.all_eq_true.1 hcs c hc)

lemma IsToken.lt (h : IsToken D c) : c.toNat < 0x80 := by
  cases h with
  | blank h => exact toNat_of_mem_ascii rfl (isBlank_iff.1 h)
  | digit h => exact toNat_of_isDigit h
  | ordinary h => exact toNat_of_mem_ascii rfl h
  | nonFinite hD h => exact toNat_of_mem_ascii rfl h

lemma IsHexDigit.lt (h : IsHexDigit c) : c.toNat < 0x80 := by
  obtain ⟨n, h⟩ := h
  have hle : ∀ d : Char, d.toNat < 0x80 → c ≤ d → c.toNat < 0x80 :=
    fun d hd hcd => (UInt32.le_iff_toNat_le.1 hcd).trans_lt hd
  unfold hexValue? at h
  split_ifs at h with hdigit hlower hupper
  · exact hle _ (by decide) hdigit.2
  · exact hle _ (by decide) hlower.2
  · exact hle _ (by decide) hupper.2

/-- A number is read from digits only, whatever was read before. -/
lemma isHexDigit_of_foldl {n? : Option Nat}
    (h : (cs.foldl (fun n? c => n?.bind fun n => (hexValue? c).map (16 * n + ·)) n?).isSome) :
    n?.isSome ∧ ∀ c ∈ cs, IsHexDigit c := by
  induction cs generalizing n? with
  | nil => exact ⟨h, nofun⟩
  | cons c cs ih =>
    obtain ⟨hfirst, hcs⟩ := ih h
    obtain ⟨m, hm⟩ := Option.isSome_iff_exists.1 hfirst
    obtain ⟨n, rfl, hc⟩ := Option.bind_eq_some_iff.1 hm
    obtain ⟨digit, hdigit, -⟩ := Option.map_eq_some_iff.1 hc
    exact ⟨rfl, List.forall_mem_cons.2 ⟨⟨digit, hdigit⟩, hcs⟩⟩

lemma isHexDigit_of_hexNumber? {n : Nat} (h : hexNumber? cs = some n) : ∀ c ∈ cs, IsHexDigit c :=
  (isHexDigit_of_foldl (Option.isSome_of_eq_some h)).2

lemma passes_unit {n : Nat} (h : unit cs = some (n, after)) : Passes IsHexDigit cs after := by
  unfold unit at h
  split at h
  · next a b c d rest =>
    obtain ⟨m, hm, heq⟩ := Option.map_eq_some_iff.1 h
    cases heq
    exact ⟨[a, b, c, d], rfl, isHexDigit_of_hexNumber? hm⟩
  · cases h

/-! ### Numbers and words -/

lemma passes_skipBlanks (D : Dialect) (cs : List Char) : Passes (IsToken D) cs (skipBlanks cs) :=
  (passes_dropWhile cs).mono fun _ => .blank

lemma passes_digits {ds : List Nat} (h : digits cs = (ds, after)) :
    Passes (IsToken D) cs after := by
  obtain rfl : cs.dropWhile Char.isDigit = after := congrArg Prod.snd h
  exact (passes_dropWhile cs).mono fun _ => .digit

lemma passes_whole {ds : List Nat} (h : whole cs = some (ds, after)) :
    Passes (IsToken D) cs after := by
  unfold whole at h
  split at h
  · cases h
    exact (Passes.refl _).cons (.digit rfl)
  · split at h
    · cases h
    · exact passes_digits (Option.some.inj h)

lemma passes_fraction {ds : List Nat} (h : fraction cs = some (ds, after)) :
    Passes (IsToken D) cs after := by
  unfold fraction at h
  split at h
  · split at h
    · cases h
    · exact (passes_digits (Option.some.inj h)).cons (.ordinary (by decide))
  · cases h

lemma passes_exponent {e : Int} (h : exponent cs = some (e, after)) :
    Passes (IsToken D) cs after := by
  unfold exponent at h
  split at h
  · next c rest =>
    split_ifs at h with hletter
    have hc : IsToken D c := by
      simp only [Bool.or_eq_true, decide_eq_true_eq] at hletter
      rcases hletter with rfl | rfl <;> exact .ordinary (by decide)
    refine Passes.cons ?_ hc
    split at h
    next negative afterSign hsign =>
      have hpassed : Passes (IsToken D) rest afterSign := by
        split at hsign <;> cases hsign
        · exact (Passes.refl _).cons (.ordinary (by decide))
        · exact (Passes.refl _).cons (.ordinary (by decide))
        · exact .refl _
      split at h
      · cases h
      · next hdigits =>
        cases h
        exact hpassed.trans (passes_digits hdigits)
  · cases h

lemma passes_unsigned {negative : Bool} {v : Value}
    (h : unsigned D negative cs = some (v, after)) : Passes (IsToken D) cs after := by
  simp only [unsigned, Option.bind_eq_bind, Option.bind_eq_some_iff] at h
  obtain ⟨⟨ds, afterWhole⟩, hwhole, h⟩ := h
  have hfraction :
      Passes (IsToken D) afterWhole ((fraction afterWhole).getD ([], afterWhole)).2 := by
    cases hf : fraction afterWhole with
    | none => exact .refl _
    | some found => exact passes_fraction hf
  have hexponent : ∀ rest, Passes (IsToken D) rest ((exponent rest).getD (0, rest)).2 := by
    intro rest
    cases he : exponent rest with
    | none => exact .refl _
    | some found => exact passes_exponent he
  have hpassed := (passes_whole hwhole).trans (hfraction.trans (hexponent _))
  dsimp only at h
  split_ifs at h <;> cases h <;> exact hpassed

lemma passes_word? {v : Value} (h : word? D cs = some (v, after)) :
    Passes (IsToken D) cs after := by
  have hword : ∀ {word : List Char}, (∀ c ∈ word,
      c ∈ ['+', '-', '.', 'e', 'E', 'n', 'u', 'l', 't', 'r', 'f', 'a', 's'] ∨
        D.nonFinite = true ∧ c ∈ ['N', 'I', 'i', 'y']) → Passes (IsToken D) (word ++ after) after :=
    fun hall => passes_append fun c hc => (hall c hc).elim .ordinary fun h => .nonFinite h.1 h.2
  unfold word? at h
  split at h
  · cases h
    exact @hword ['n', 'u', 'l', 'l'] (by simp)
  · cases h
    exact @hword ['t', 'r', 'u', 'e'] (by simp)
  · cases h
    exact @hword ['f', 'a', 'l', 's', 'e'] (by simp)
  · split_ifs at h with hD
    cases h
    exact @hword ['N', 'a', 'N'] (by simp [hD])
  · split_ifs at h with hD
    cases h
    exact @hword ['I', 'n', 'f', 'i', 'n', 'i', 't', 'y'] (by simp [hD])
  · split_ifs at h with hD
    cases h
    exact @hword ['-', 'I', 'n', 'f', 'i', 'n', 'i', 't', 'y'] (by simp [hD])
  · cases h

/-- What is found is a word, or a number with its sign. -/
lemma scalar_cases {v : Value} (h : scalar D cs = .ok (v, after)) :
    word? D cs = some (v, after) ∨
      ∃ negative number, cs = (if negative then '-' :: number else number) ∧
        unsigned D negative number = some (v, after) := by
  unfold scalar at h
  cases hword : word? D cs with
  | some found =>
    rw [hword] at h
    cases h
    exact .inl rfl
  | none =>
    rw [hword] at h
    dsimp only [Option.orElse] at h
    split at h
    · next found hnumber =>
      cases h
      unfold number? at hnumber
      split at hnumber
      · exact .inr ⟨true, _, rfl, hnumber⟩
      · exact .inr ⟨false, _, rfl, hnumber⟩
    · cases h

lemma passes_scalar {v : Value} (h : scalar D cs = .ok (v, after)) :
    Passes (IsToken D) cs after := by
  rcases scalar_cases h with hword | ⟨negative, number, rfl, hnumber⟩
  · exact passes_word? hword
  · cases negative with
    | true => exact (passes_unsigned hnumber).cons (.ordinary (by decide))
    | false => exact passes_unsigned hnumber

end Passes

end Json

end Workflow
