import Workflow.Proofs.Yaml.Text
import Workflow.Yaml.Scalar

/-!
# JSON strings as quoted scalars

The escapes of JSON stand for the same characters in YAML. All other characters of a string stand
for themselves, and spaces do so as long as no line ends after them.
-/

namespace Workflow.Yaml

open Text Json

variable {c : Char} {cs rest : List Char} {fuel : Nat}

/-! ### Escapes -/

/-- An escape of JSON is read as the character that it was written for. -/
lemma exists_readEscape (h : isLiteral c = false) :
    ∃ es, writeChar false c = '\\' :: es ∧
      ∀ rest, readEscape (es ++ rest) = .ok ([.char c], rest) := by
  rcases writeChar_of_not_isLiteral h with ⟨letter, hletter, hwrite⟩ | ⟨hcontrol, hwrite⟩
  · refine ⟨[letter], hwrite, fun rest => ?_⟩
    have hescaped : escaped? letter = some c := by
      simp only [shortEscapes, List.mem_cons, List.not_mem_nil, or_false, Prod.mk.injEq] at hletter
      rcases hletter with ⟨rfl, rfl⟩ | ⟨rfl, rfl⟩ | ⟨rfl, rfl⟩ | ⟨rfl, rfl⟩ | ⟨rfl, rfl⟩ |
        ⟨rfl, rfl⟩ | ⟨rfl, rfl⟩ <;> rfl
    simp [readEscape, hescaped]
  · refine ⟨'u' :: hexDigits 4 c.toNat, hwrite, fun rest => ?_⟩
    have hescaped : escaped? 'u' = none := rfl
    have hwidth : escapeWidth? 'u' = some 4 := rfl
    have hlength : (hexDigits 4 c.toNat).length = 4 := by rw [hexDigits_four]; rfl
    have hnumber : hexNumber? ((hexDigits 4 c.toNat ++ rest).take 4) = some c.toNat := by
      rw [List.take_left' hlength, hexNumber?_hexDigits (by omega)]
    have hdrop : (hexDigits 4 c.toNat ++ rest).drop 4 = rest := List.drop_left' hlength
    have hlong : ¬(hexDigits 4 c.toNat ++ rest).length < 4 := by
      rw [List.length_append, hlength]
      omega
    have hcharacter : character? c.toNat = .ok (.char c) := by
      rw [character?, if_neg (by omega), if_neg (by omega), Part.ofCodePoint, dif_neg (by omega),
        Char.ofNat_toNat]
    simp only [List.cons_append, readEscape, hescaped, hwidth, hnumber, hdrop, hlong, hcharacter]
    rfl

/-! ### Strings -/

lemma isSpace_of_isInline (h : IsInline c) (hne : c ≠ ' ') : isSpace c = false := by
  have htab : c ≠ '\t' := by
    rintro rfl
    exact absurd h.printable (by decide)
  simp [isSpace, hne, htab]

/-- Spaces before another character are read at once. -/
lemma scanQuoted_spaces (hc : IsInline c) (hne : c ≠ ' ') (k : Nat) (found : List Part)
    (hfuel : (List.replicate k ' ' ++ c :: rest).length ≤ fuel) :
    ∃ fuel', rest.length ≤ fuel' ∧
      scanQuoted true fuel found (List.replicate k ' ' ++ c :: rest)
        = scanQuoted true (fuel' + 1) (List.replicate k (.char ' ') ++ found) (c :: rest) := by
  rw [List.length_append, List.length_replicate, List.length_cons] at hfuel
  obtain ⟨fuel, rfl⟩ : ∃ f, fuel = f + 1 := ⟨fuel - 1, by omega⟩
  cases k with
  | zero => exact ⟨fuel, by omega, rfl⟩
  | succ k =>
    obtain ⟨fuel, rfl⟩ : ∃ f, fuel = f + 1 := ⟨fuel - 1, by omega⟩
    have hspaces : ∀ x ∈ List.replicate (k + 1) ' ', isSpace x = true := fun x hx => by
      rw [List.eq_of_mem_replicate hx]
      rfl
    have hspace := isSpace_of_isInline hc hne
    have htake : (List.replicate (k + 1) ' ' ++ c :: rest).takeWhile isSpace
        = List.replicate (k + 1) ' ' := by
      rw [List.takeWhile_append_of_pos hspaces, List.takeWhile_cons_of_neg (by simp [hspace]),
        List.append_nil]
    have hdrop : (List.replicate (k + 1) ' ' ++ c :: rest).dropWhile isSpace = c :: rest := by
      rw [List.dropWhile_append_of_pos hspaces, List.dropWhile_cons_of_neg (by simp [hspace])]
    have hgap : quotedGap (List.replicate (k + 1) ' ' ++ c :: rest)
        = .ok (List.replicate (k + 1) ' ', c :: rest) := by
      simp [quotedGap, htake, hdrop, hc.notBreak]
    refine ⟨fuel, by omega, ?_⟩
    rw [List.replicate_succ, List.cons_append] at hgap
    rw [List.replicate_succ, List.cons_append, scanQuoted.eq_def]
    dsimp only
    rw [if_pos (by rfl), hgap]
    simp [bind, Except.bind, List.map_replicate, ← List.replicate_succ]

/-- A character that stands for itself is read alone, unless it is a space. -/
lemma scanQuoted_literal (hliteral : isLiteral c = true) (hc : IsInline c) (hne : c ≠ ' ')
    (found : List Part) (rest : List Char) :
    scanQuoted true (fuel + 1) found (c :: rest)
      = scanQuoted true fuel (.char c :: found) rest := by
  have hspace := isSpace_of_isInline hc hne
  simp only [isLiteral, Bool.and_eq_true, decide_eq_true_iff] at hliteral
  obtain ⟨⟨hquote, hslash⟩, -⟩ := hliteral
  rw [scanQuoted.eq_def]
  simp [hspace, hc.notBreak, hquote, hslash]

/-- An escape is read as the character that it was written for. -/
lemma scanQuoted_escape {es : List Char}
    (hread : ∀ rest, readEscape (es ++ rest) = .ok ([.char c], rest)) (found : List Part)
    (rest : List Char) :
    scanQuoted true (fuel + 1) found ('\\' :: (es ++ rest))
      = scanQuoted true fuel (.char c :: found) rest := by
  rw [scanQuoted.eq_def]
  dsimp only
  rw [if_neg (by decide), if_pos (by rfl), hread]
  rfl

/-- The rest of a string is read after its parts before and the spaces that come next. -/
lemma scanQuoted_writeChar (h : ∀ c ∈ cs, isSafe c = true) (rest : List Char) (k : Nat)
    (found : List Part)
    (hfuel : (List.replicate k ' '
      ++ (cs.flatMap (writeChar false) ++ '"' :: rest)).length ≤ fuel) :
    scanQuoted true fuel found
        (List.replicate k ' ' ++ (cs.flatMap (writeChar false) ++ '"' :: rest))
      = .ok (ofParts (found.reverse ++ (List.replicate k (.char ' ') ++ cs.map .char)), rest) := by
  induction cs generalizing k found fuel with
  | nil =>
    obtain ⟨fuel', -, hscan⟩ := scanQuoted_spaces (c := '"') (isInline_of_ascii (by decide))
      (by decide) k found hfuel
    refine hscan.trans ?_
    rw [scanQuoted.eq_def]
    dsimp only
    rw [if_neg (by decide), if_neg (by decide), if_pos (by rfl)]
    simp
  | cons c cs ih =>
    obtain ⟨hc, hcs⟩ := List.forall_mem_cons.1 h
    have hinline := isInline_writeChar hc
    rw [List.flatMap_cons, List.append_assoc] at hfuel ⊢
    cases hliteral : isLiteral c with
    | true =>
      rw [writeChar_of_isLiteral hliteral] at hinline hfuel ⊢
      by_cases hspace : c = ' '
      · -- one more space comes next
        have hmore : ∀ xs, List.replicate k ' ' ++ ([c] ++ xs) = List.replicate (k + 1) ' ' ++ xs :=
          fun xs => by rw [hspace, ← List.append_assoc, ← List.replicate_succ']
        rw [hmore] at hfuel ⊢
        rw [ih hcs (k + 1) found hfuel, List.replicate_succ', List.append_assoc, hspace]
        rfl
      · have hc := List.forall_mem_singleton.1 hinline
        obtain ⟨fuel', hfuel', hscan⟩ := scanQuoted_spaces hc hspace k found hfuel
        have hothers := ih hcs 0 (.char c :: (List.replicate k (.char ' ') ++ found)) hfuel'
        refine hscan.trans ((scanQuoted_literal hliteral hc hspace _ _).trans (hothers.trans ?_))
        simp
    | false =>
      obtain ⟨es, hwrite, hread⟩ := exists_readEscape hliteral
      rw [hwrite, List.cons_append] at hfuel ⊢
      rw [hwrite] at hinline
      obtain ⟨fuel', hfuel', hscan⟩ :=
        scanQuoted_spaces (hinline _ List.mem_cons_self) (by decide) k found hfuel
      rw [List.length_append] at hfuel'
      have hothers := ih hcs 0 (.char c :: (List.replicate k (.char ' ') ++ found))
        ((Nat.le_add_left _ _).trans hfuel')
      refine hscan.trans ((scanQuoted_escape hread _ _).trans (hothers.trans ?_))
      simp

/-- **A JSON string is read as the text that it was written from.** -/
lemma scanQuoted_quotedChars {s : String} (hwhole : hasHalf s = false) (h : isSafeText s = true)
    (rest : List Char) :
    ∃ body, quotedChars s ++ rest = '"' :: body ∧
      ∀ fuel, body.length ≤ fuel → scanQuoted true fuel [] body = .ok (s, rest) := by
  have hparts : ofParts ((shown s).toList.map .char) = s := ofChars_shown hwhole
  refine ⟨(shown s).toList.flatMap (writeChar false) ++ '"' :: rest, ?_, fun fuel hfuel => ?_⟩
  · rw [quotedChars, List.cons_append, List.append_assoc, List.singleton_append]
  · have hscan := @scanQuoted_writeChar _ fuel (List.all_eq_true.1 h) rest 0 []
    simp only [List.replicate_zero, List.nil_append, List.reverse_nil, hparts] at hscan
    exact hscan hfuel

end Workflow.Yaml
