import Workflow.Json.Writer
import Workflow.Proofs.Json.Number
import Workflow.Proofs.Text.Surrogate

/-!
# Texts are read as they were written

A text inside a JSON document is written character by character, some of them as escapes. Between
two escapes it is read in one piece.
-/

namespace Workflow

namespace Json

open Text

/-! ### What is written -/

/-- The characters of a text inside a JSON string. -/
def written (cs : List Char) : List Char :=
  charsAfter 0 ((cs.flatMap (writeChar false)).map .char)

section Written

variable {c : Char} {cs : List Char}

lemma writeChar_of_isLiteral (h : isLiteral c = true) : writeChar false c = [c] := by
  simp only [isLiteral, Bool.and_eq_true, decide_eq_true_iff] at h
  obtain ⟨⟨hquote, hslash⟩, hprintable⟩ := h
  have hcontrol : ∀ c' : Char, c'.toNat < 0x20 → c ≠ c' := by
    rintro c' hc' rfl
    omega
  rw [writeChar]
  simp [hquote, hslash, hcontrol '\n' (by decide), hcontrol '\r' (by decide),
    hcontrol '\t' (by decide), hcontrol '\x08' (by decide), hcontrol '\x0c' (by decide), hprintable]

lemma hexValue?_digitChar : ∀ d : Fin 16, hexValue? (Nat.digitChar d) = some d.val := by
  decide

lemma hexDigits_four (n : Nat) :
    hexDigits 4 n = [Nat.digitChar (n / 4096 % 16), Nat.digitChar (n / 256 % 16),
      Nat.digitChar (n / 16 % 16), Nat.digitChar (n / 1 % 16)] :=
  rfl

/-- Four digits are read as the number they were written from. -/
lemma hexNumber?_hexDigits {n : Nat} (hn : n < 0x10000) : hexNumber? (hexDigits 4 n) = some n := by
  have hvalue : ∀ k, hexValue? (Nat.digitChar (k % 16)) = some (k % 16) := fun k =>
    hexValue?_digitChar ⟨k % 16, Nat.mod_lt k (by norm_num)⟩
  rw [hexDigits_four]
  simp only [hexNumber?, List.foldl_cons, List.foldl_nil, Option.bind_some, hvalue, Option.map_some]
  congr 1
  omega

/-- The unit that is written by four digits is read again. -/
lemma unit_hexDigits {n : Nat} (hn : n < 0x10000) (rest : List Char) :
    unit (hexDigits 4 n ++ rest) = some (n, rest) := by
  have hnumber := hexNumber?_hexDigits hn
  rw [hexDigits_four] at hnumber ⊢
  simp only [List.cons_append, List.nil_append, unit, hnumber, Option.map_some]

lemma toNat_digitChar : ∀ d : Fin 16,
    0x20 ≤ (Nat.digitChar d).toNat ∧ (Nat.digitChar d).toNat ≤ 0x7e := by
  decide

lemma toNat_of_mem_hexDigits {width n : Nat} (h : c ∈ hexDigits width n) :
    0x20 ≤ c.toNat ∧ c.toNat ≤ 0x7e := by
  rw [hexDigits, List.mem_map] at h
  obtain ⟨place, -, rfl⟩ := h
  exact toNat_digitChar ⟨_, Nat.mod_lt _ (by norm_num)⟩

/-- The letters that escape a character, with the character. -/
def shortEscapes : List (Char × Char) :=
  [('"', '"'), ('\\', '\\'), ('n', '\n'), ('r', '\r'), ('t', '\t'), ('b', '\x08'), ('f', '\x0c')]

/-- A character that may not stand for itself is escaped by a letter, or by its code. -/
lemma writeChar_of_not_isLiteral (h : isLiteral c = false) :
    (∃ letter, (letter, c) ∈ shortEscapes ∧ writeChar false c = ['\\', letter]) ∨
      c.toNat < 0x20 ∧ writeChar false c = '\\' :: 'u' :: hexDigits 4 c.toNat := by
  by_cases hshort : c ∈ shortEscapes.map Prod.snd
  · left
    simp only [shortEscapes, List.map_cons, List.map_nil, List.mem_cons, List.not_mem_nil,
      or_false] at hshort
    rcases hshort with rfl | rfl | rfl | rfl | rfl | rfl | rfl
    · exact ⟨'"', by decide, rfl⟩
    · exact ⟨'\\', by decide, rfl⟩
    · exact ⟨'n', by decide, rfl⟩
    · exact ⟨'r', by decide, rfl⟩
    · exact ⟨'t', by decide, rfl⟩
    · exact ⟨'b', by decide, rfl⟩
    · exact ⟨'f', by decide, rfl⟩
  · right
    simp only [shortEscapes, List.map_cons, List.map_nil, List.mem_cons, List.not_mem_nil,
      or_false, not_or] at hshort
    obtain ⟨hquote, hslash, hline, hreturn, htab, hback, hfeed⟩ := hshort
    have hcontrol : c.toNat < 0x20 := by
      simpa [isLiteral, hquote, hslash] using h
    refine ⟨hcontrol, ?_⟩
    simp [writeChar, hquote, hslash, hline, hreturn, htab, hback, hfeed, hcontrol, codeEscape,
      unitEscape, show c.toNat < 0x10000 by omega]

/-- A character that may not stand for itself is written as an escape that is read again. -/
lemma exists_escape (h : isLiteral c = false) :
    ∃ cs, writeChar false c = '\\' :: cs ∧ (∀ x ∈ cs, x.toNat < 0x80) ∧
      ∀ (D : Dialect) (rest : List Char), escape D (cs ++ rest) = some (.char c, rest) := by
  rcases writeChar_of_not_isLiteral h with ⟨letter, hletter, hwrite⟩ | ⟨hcontrol, hwrite⟩
  · refine ⟨[letter], hwrite, List.forall_mem_singleton.2 ?_, fun D rest => ?_⟩
    all_goals
      simp only [shortEscapes, List.mem_cons, List.not_mem_nil, or_false, Prod.mk.injEq] at hletter
      rcases hletter with ⟨rfl, rfl⟩ | ⟨rfl, rfl⟩ | ⟨rfl, rfl⟩ | ⟨rfl, rfl⟩ | ⟨rfl, rfl⟩ |
        ⟨rfl, rfl⟩ | ⟨rfl, rfl⟩
    all_goals first | decide | rfl
  · refine ⟨'u' :: hexDigits 4 c.toNat, hwrite, ?_, fun D rest => ?_⟩
    · intro x hx
      rcases List.mem_cons.1 hx with rfl | hx
      · decide
      · exact (toNat_of_mem_hexDigits hx).2.trans_lt (by norm_num)
    · have hlow : ¬(0xd800 ≤ c.toNat ∧ c.toNat < 0xdc00) := by omega
      have hhigh : ¬(0xdc00 ≤ c.toNat ∧ c.toNat < 0xe000) := by omega
      have hpart : Part.ofCodePoint c.toNat = .char c := by
        rw [Part.ofCodePoint, dif_neg (by omega), Char.ofNat_toNat]
      simp [escape, codeEscaped, unit_hexDigits (show c.toNat < 0x10000 by omega), hlow, hhigh,
        hpart]

lemma isPlain_slash : IsPlain '\\' :=
  isPlain_of_lt (by decide)

lemma written_cons_of_escape (h : isLiteral c = false) (cs : List Char) :
    ∃ es, written (c :: cs) = '\\' :: (es ++ written cs) ∧
      ∀ (D : Dialect) (rest : List Char), escape D (es ++ rest) = some (.char c, rest) := by
  obtain ⟨es, hwrite, hascii, hread⟩ := exists_escape h
  refine ⟨es, ?_, hread⟩
  have hplain : ∀ x ∈ '\\' :: es, IsPlain x := by
    intro x hx
    rcases List.mem_cons.1 hx with rfl | hx
    · exact isPlain_slash
    · exact isPlain_of_lt ((hascii x hx).trans (by norm_num))
  rw [written, List.flatMap_cons, hwrite, List.map_append, charsAfter_append_of_isPlain hplain]
  rfl

lemma flatMap_writeChar {ls : List Char} (h : ∀ c ∈ ls, isLiteral c = true) :
    ls.flatMap (writeChar false) = ls := by
  induction ls with
  | nil => rfl
  | cons c ls ih =>
    obtain ⟨hc, hls⟩ := List.forall_mem_cons.1 h
    rw [List.flatMap_cons, writeChar_of_isLiteral hc, ih hls]
    rfl

/-- Characters that stand for themselves, up to the next that does not. -/
lemma written_append {ls : List Char} (hls : ∀ c ∈ ls, isLiteral c = true)
    (hcs : ∀ c ∈ cs.head?, isLiteral c = false) :
    written (ls ++ cs) = charsAfter 0 (ls.map .char) ++ written cs := by
  cases cs with
  | nil =>
    rw [List.append_nil, written, flatMap_writeChar hls]
    exact (List.append_nil _).symm
  | cons c cs =>
    obtain ⟨es, hwrite, -, -⟩ := exists_escape (hcs c rfl)
    rw [written, written, List.flatMap_append, flatMap_writeChar hls, List.map_append,
      List.flatMap_cons, hwrite, List.cons_append, List.map_cons,
      charsAfter_append_cons isPlain_slash, charsAfter_cons isPlain_slash]
    rfl

end Written

/-! ### What is read -/

/-- A character by which a piece of a string ends. -/
lemma takeWhile_isLiteral_append {ls rest : List Char} (hls : ∀ c ∈ ls, isLiteral c = true)
    (hrest : ∀ c ∈ rest.head?, isLiteral c = false) :
    (ls ++ rest).takeWhile isLiteral = ls ∧ (ls ++ rest).dropWhile isLiteral = rest := by
  rw [List.takeWhile_append_of_pos hls, List.dropWhile_append_of_pos hls]
  cases rest with
  | nil => exact ⟨List.append_nil _, rfl⟩
  | cons c rest =>
    have hc : isLiteral c = false := hrest c rfl
    constructor <;> simp [hc]

lemma isLiteral_of_mem_charsAfter {c : Char} {ls : List Char} (hls : ∀ c ∈ ls, isLiteral c = true)
    (hc : c ∈ charsAfter 0 (ls.map .char)) : isLiteral c = true := by
  rcases mem_charsAfter hc with rfl | hc
  · decide
  · exact hls c hc

lemma charsAfter_ne_nil {ls : List Char} (h : ls ≠ []) : charsAfter 0 (ls.map .char) ≠ [] := by
  intro hnil
  have hparts := partsAfter_charsAfter 0 (ls.map .char)
  rw [hnil, List.replicate_zero, List.nil_append] at hparts
  exact h (List.map_eq_nil_iff.1 hparts.symm)

/-- A piece without escapes is read at once. -/
lemma stringBody_piece (D : Dialect) (fuel : Nat) (before : List Part) {ls rest : List Char}
    (hne : ls ≠ []) (hls : ∀ c ∈ ls, isLiteral c = true)
    (hrest : ∀ c ∈ rest.head?, isLiteral c = false) :
    stringBody D (fuel + 1) before (charsAfter 0 (ls.map .char) ++ rest)
      = stringBody D fuel ((ls.map .char).reverse ++ before) rest := by
  have hliteral := fun c => isLiteral_of_mem_charsAfter (c := c) hls
  have hparts := partsAfter_charsAfter 0 (ls.map .char)
  rw [List.replicate_zero, List.nil_append] at hparts
  cases hpiece : charsAfter 0 (ls.map .char) with
  | nil => exact absurd hpiece (charsAfter_ne_nil hne)
  | cons x xs =>
    rw [hpiece] at hliteral hparts
    obtain ⟨hx, hxs⟩ := List.forall_mem_cons.1 hliteral
    obtain ⟨htake, hdrop⟩ := takeWhile_isLiteral_append hxs hrest
    rw [List.cons_append, stringBody]
    · rw [if_pos hx, htake, hdrop, parts_eq, String.toList_ofList, hparts]
    · rintro rfl
      exact absurd hx (by decide)
    · rintro rfl
      exact absurd hx (by decide)

/-- A piece ends at an escape or at the end of the string. -/
lemma isLiteral_head?_written {cs : List Char} (hcs : ∀ c ∈ cs.head?, isLiteral c = false)
    (rest : List Char) :
    ∀ c ∈ (written cs ++ '"' :: rest).head?, isLiteral c = false := by
  intro c hc
  cases cs with
  | nil =>
    obtain rfl : '"' = c := Option.some.inj hc
    decide
  | cons c' cs =>
    obtain ⟨es, hwritten, -⟩ := written_cons_of_escape (hcs c' rfl) cs
    rw [hwritten] at hc
    obtain rfl : '\\' = c := Option.some.inj hc
    decide

/-- The rest of a string is read after the parts before it. -/
lemma stringBody_written (D : Dialect) (cs rest : List Char) (before : List Part) {fuel : Nat}
    (hfuel : (written cs).length < fuel) :
    stringBody D fuel before (written cs ++ '"' :: rest)
      = some (ofParts (before.reverse ++ cs.map .char), rest) := by
  induction hlength : cs.length using Nat.strongRecOn generalizing cs before fuel with
  | ind n ih =>
    obtain ⟨fuel, rfl⟩ : ∃ f, fuel = f + 1 := ⟨fuel - 1, by omega⟩
    cases cs with
    | nil =>
      rw [List.map_nil, List.append_nil]
      rfl
    | cons c cs =>
      cases hc : isLiteral c with
      | false =>
        obtain ⟨es, hwritten, hread⟩ := written_cons_of_escape hc cs
        rw [hwritten, List.length_cons, List.length_append] at hfuel
        rw [hwritten, List.cons_append, List.append_assoc, stringBody, hread]
        dsimp only
        rw [ih cs.length (by rw [← hlength]; exact Nat.lt_succ_self _) cs _ (by omega) rfl,
          List.reverse_cons, List.append_assoc]
        rfl
      | true =>
        -- the piece goes up to the next escape or to the end of the string
        obtain ⟨ls, others, hsplit, hne, hls, hothers⟩ :
            ∃ ls others, c :: cs = ls ++ others ∧ ls ≠ [] ∧ (∀ x ∈ ls, isLiteral x = true) ∧
              ∀ x ∈ others.head?, isLiteral x = false := by
          refine ⟨(c :: cs).takeWhile isLiteral, (c :: cs).dropWhile isLiteral,
            List.takeWhile_append_dropWhile.symm, ?_, fun x hx => List.mem_takeWhile_imp hx, ?_⟩
          · rw [List.takeWhile_cons_of_pos hc]
            exact List.cons_ne_nil _ _
          · intro x hx
            have hfirst := List.head?_dropWhile_not isLiteral (c :: cs)
            rwa [Option.mem_def.1 hx] at hfirst
        have hnext := isLiteral_head?_written hothers rest
        rw [hsplit] at hlength hfuel ⊢
        rw [written_append hls hothers] at hfuel ⊢
        rw [List.length_append] at hlength hfuel
        have hpos := List.length_pos_of_ne_nil hne
        have hpiece := List.length_pos_of_ne_nil (charsAfter_ne_nil hne)
        rw [List.append_assoc, stringBody_piece D fuel before hne hls hnext,
          ih others.length (by omega) others _ (by omega) rfl, List.reverse_append,
          List.reverse_reverse, List.append_assoc, List.map_append]

/-- A JSON string stands between two quotes. -/
lemma toList_writeString (ascii : Bool) (s : String) :
    (writeString ascii s).toList
      = '"' :: (charsAfter 0 (((parts s).flatMap (writePart ascii)).map .char) ++ ['"']) := by
  have hquote : IsPlain '"' := isPlain_of_lt (by decide)
  rw [writeString, ofChars, ofParts_eq, String.toList_ofList, List.cons_append, List.map_cons,
    charsAfter_cons hquote, List.map_append]
  change [] ++ '"' :: charsAfter 0 (_ ++ .char '"' :: []) = _
  rw [charsAfter_append_cons hquote]
  rfl

/-- The characters of a text without half a surrogate pair, as a JSON string. -/
lemma exists_written {s : String} (h : hasHalf s = false) :
    ∃ cs, parts s = cs.map .char ∧
      (writeString false s).toList = '"' :: (written cs ++ ['"']) := by
  refine ⟨(parts s).map Part.shown, eq_map_shown h, ?_⟩
  have hbody : (parts s).flatMap (writePart false)
      = ((parts s).map Part.shown).flatMap (writeChar false) := by
    conv_lhs => rw [eq_map_shown h, List.flatMap_map]
    rfl
  rw [toList_writeString, hbody, written]

/-- A text is read as it was written. -/
theorem stringBody_writeString (D : Dialect) {s : String} (h : hasHalf s = false) (rest : List Char)
    (fuel : Nat) (hfuel : (writeString false s).length ≤ fuel) :
    ∃ body, (writeString false s).toList = '"' :: body ∧
      stringBody D fuel [] (body ++ rest) = some (s, rest) := by
  obtain ⟨cs, hparts, htext⟩ := exists_written h
  refine ⟨_, htext, ?_⟩
  have hlength := congrArg List.length htext
  rw [String.length_toList, List.length_cons, List.length_append, List.length_singleton] at hlength
  rw [List.append_assoc, List.singleton_append, stringBody_written D cs rest [] (by omega),
    List.reverse_nil, List.nil_append, ← hparts, ofParts_parts]

end Json

end Workflow
