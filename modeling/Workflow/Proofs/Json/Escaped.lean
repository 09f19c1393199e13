import Workflow.Proofs.Json.Text

/-!
# Escaped texts are read as they were written

A compact text escapes every character outside the printable part of ASCII, one beyond the first
65536 by a pair of surrogates. So a high surrogate by itself must not stand before a low one: the
two would be read as one character.
-/

namespace Workflow

namespace Text

/-- Whether two parts, one after the other, are written like one character. -/
def Part.Joins : Part → Part → Prop
  | .half high, .half low => high.val < 0x400 ∧ 0x400 ≤ low.val
  | _, _ => False

instance : DecidableRel Part.Joins
  | .half _, .half _ => inferInstanceAs (Decidable (_ ∧ _))
  | .half _, .char _ | .char _, .half _ | .char _, .char _ => inferInstanceAs (Decidable False)

/-- A text in which no high surrogate stands before a low one. -/
def IsJoined (s : String) : Prop :=
  (parts s).IsChain fun p q => ¬p.Joins q

instance (s : String) : Decidable (IsJoined s) :=
  inferInstanceAs (Decidable ((parts s).IsChain _))

lemma Part.ofCodePoint_codePoint (p : Part) : .ofCodePoint p.codePoint = p := by
  cases p with
  | char c =>
    have hvalid : c.toNat < 0xd800 ∨ 0xdfff < c.toNat ∧ c.toNat < 0x110000 := c.valid
    rw [codePoint, ofCodePoint, dif_neg (by omega), Char.ofNat_toNat]
  | half n =>
    rw [codePoint, ofCodePoint, dif_pos (by omega)]
    simp

end Text

namespace Json

open Text

section Parts

variable {D : Dialect} {c : Char} {p q : Part} {rest : List Char}

lemma writeChar_of_le (h : c.toNat ≤ 0x7e) : writeChar true c = writeChar false c := by
  simp [writeChar, show ¬0x7e < c.toNat by omega]

lemma writeChar_of_lt (h : 0x7e < c.toNat) : writeChar true c = codeEscape c := by
  have hne : ∀ c' : Char, c'.toNat ≤ 0x7e → c ≠ c' := by
    rintro c' hc' rfl
    omega
  simp [writeChar, hne '"' (by decide), hne '\\' (by decide), hne '\n' (by decide),
    hne '\r' (by decide), hne '\t' (by decide), hne '\x08' (by decide), hne '\x0c' (by decide), h]

/-- A part stands for itself, or it is escaped by a letter, by its code, or by two surrogates. -/
lemma writePart_cases (p : Part) :
    (∃ c, p = .char c ∧ isLiteral c = true ∧ c.toNat ≤ 0x7e ∧ writePart true p = [c]) ∨
    (∃ letter c, p = .char c ∧ (letter, c) ∈ shortEscapes ∧ writePart true p = ['\\', letter]) ∨
    (p.codePoint < 0x10000 ∧ writePart true p = unitEscape p.codePoint) ∨
    ∃ high low, high < 0x400 ∧ low < 0x400 ∧ p = .ofCodePoint (0x10000 + high * 0x400 + low) ∧
      writePart true p = unitEscape (0xd800 + high) ++ unitEscape (0xdc00 + low) := by
  cases p with
  | half n => exact .inr (.inr (.inl ⟨by simp only [Part.codePoint]; omega, rfl⟩))
  | char c =>
    by_cases hc : c.toNat ≤ 0x7e
    · rw [writePart, writeChar_of_le hc]
      cases hliteral : isLiteral c with
      | true => exact .inl ⟨c, rfl, hliteral, hc, writeChar_of_isLiteral hliteral⟩
      | false =>
        rcases writeChar_of_not_isLiteral hliteral with ⟨letter, hletter, hwrite⟩ | ⟨hcode, hwrite⟩
        · exact .inr (.inl ⟨letter, c, rfl, hletter, hwrite⟩)
        · exact .inr (.inr (.inl ⟨by simp only [Part.codePoint]; omega, hwrite⟩))
    · rw [writePart, writeChar_of_lt (by omega), codeEscape]
      by_cases hwide : c.toNat < 0x10000
      · exact .inr (.inr (.inl ⟨hwide, if_pos hwide⟩))
      · have hvalid : c.toNat < 0xd800 ∨ 0xdfff < c.toNat ∧ c.toNat < 0x110000 := c.valid
        have hcode : 0x10000 + (c.toNat - 0x10000) / 0x400 * 0x400 + (c.toNat - 0x10000) % 0x400
            = c.toNat := by omega
        refine .inr (.inr (.inr ⟨_, _, by omega, Nat.mod_lt _ (by norm_num), ?_, if_neg hwide⟩))
        rw [hcode]
        exact (Part.ofCodePoint_codePoint (.char c)).symm

lemma writePart_literal_or_escape (p : Part) :
    (∃ c, p = .char c ∧ isLiteral c = true ∧ IsPlain c ∧ writePart true p = [c]) ∨
      ∃ es, writePart true p = '\\' :: es := by
  rcases writePart_cases p with ⟨c, hp, hliteral, hc, hwrite⟩ | ⟨letter, c, -, -, hwrite⟩ |
    ⟨-, hwrite⟩ | ⟨high, low, -, -, -, hwrite⟩
  · exact .inl ⟨c, hp, hliteral, isPlain_of_lt (hc.trans_lt (by norm_num)), hwrite⟩
  all_goals exact .inr ⟨_, hwrite⟩

lemma toNat_of_mem_unitEscape {n : Nat} (h : c ∈ unitEscape n) : c.toNat ≤ 0x7e := by
  simp only [unitEscape, List.mem_cons] at h
  rcases h with rfl | rfl | h
  · decide
  · decide
  · exact (toNat_of_mem_hexDigits h).2

/-- Parts are written in ASCII. -/
lemma toNat_of_mem_writePart (h : c ∈ writePart true p) : c.toNat ≤ 0x7e := by
  rcases writePart_cases p with ⟨c', -, -, hc', hwrite⟩ | ⟨letter, c', -, hletter, hwrite⟩ |
    ⟨-, hwrite⟩ | ⟨high, low, -, -, -, hwrite⟩ <;> rw [hwrite] at h
  · obtain rfl := List.mem_singleton.1 h
    exact hc'
  · have hascii : ∀ e ∈ shortEscapes, e.1.toNat ≤ 0x7e := by decide
    rcases List.mem_cons.1 h with rfl | h
    · decide
    · obtain rfl := List.mem_singleton.1 h
      exact hascii _ hletter
  · exact toNat_of_mem_unitEscape h
  · rcases List.mem_append.1 h with h | h <;> exact toNat_of_mem_unitEscape h

/-- What follows is not the escape of a low surrogate. -/
def EndsPair (rest : List Char) : Prop :=
  ∀ tail, rest = '\\' :: 'u' :: tail → ∀ low after, unit tail = some (low, after) →
    ¬(0xdc00 ≤ low ∧ low < 0xe000)

lemma endsPair_cons (hc : c ≠ '\\') (rest : List Char) : EndsPair (c :: rest) := by
  intro tail htail
  exact absurd (List.cons.inj htail).1 hc

lemma endsPair_unitEscape {n : Nat} (hn : n < 0x10000) (hlow : ¬(0xdc00 ≤ n ∧ n < 0xe000))
    (rest : List Char) : EndsPair (unitEscape n ++ rest) := by
  intro tail htail low after hunit
  simp only [unitEscape, List.cons_append, List.cons.injEq, true_and] at htail
  rw [← htail, unit_hexDigits hn, Option.some.injEq, Prod.mk.injEq] at hunit
  rwa [← hunit.1]

/-- A part is not written like a low surrogate unless it is one. -/
lemma endsPair_writePart (hq : ∀ low : Fin 0x800, q = .half low → low.val < 0x400)
    (rest : List Char) : EndsPair (writePart true q ++ rest) := by
  rcases writePart_cases q with ⟨c, -, hliteral, -, hwrite⟩ | ⟨letter, c, -, hletter, hwrite⟩ |
    ⟨hcode, hwrite⟩ | ⟨high, low, hhigh, -, -, hwrite⟩ <;> rw [hwrite]
  · refine endsPair_cons ?_ rest
    rintro rfl
    exact absurd hliteral (by decide)
  · have hne : ∀ e ∈ shortEscapes, e.1 ≠ 'u' := by decide
    intro tail htail
    simp only [List.cons_append, List.cons.injEq, true_and] at htail
    exact absurd htail.1 (hne _ hletter)
  · refine endsPair_unitEscape hcode ?_ rest
    cases q with
    | char c =>
      have hvalid : c.toNat < 0xd800 ∨ 0xdfff < c.toNat ∧ c.toNat < 0x110000 := c.valid
      simp only [Part.codePoint]
      omega
    | half n =>
      have hn := hq n rfl
      simp only [Part.codePoint]
      omega
  · rw [List.append_assoc]
    exact endsPair_unitEscape (by omega) (by omega) _

/-- A unit by itself is read as its part if it does not begin a pair. -/
lemma codeEscaped_unit (hD : D.loneSurrogates = true) {n : Nat} (hn : n < 0x10000)
    (hrest : 0xd800 ≤ n ∧ n < 0xdc00 → EndsPair rest) :
    codeEscaped D (hexDigits 4 n ++ rest) = some (.ofCodePoint n, rest) := by
  rw [codeEscaped, unit_hexDigits hn]
  simp only [Option.bind_eq_bind, Option.bind_some, hD, if_true]
  split_ifs with hhigh hlow
  · -- the reader looks for the other half of the pair
    split
    · next after =>
      split
      · next low after' hunit => rw [if_neg (hrest hhigh after rfl low after' hunit)]
      · rfl
    · rfl
  · rfl
  · rfl

/-- Two units that are a pair are read as one character. -/
lemma codeEscaped_pair {high low : Nat} (hhigh : high < 0x400) (hlow : low < 0x400)
    (rest : List Char) :
    codeEscaped D (hexDigits 4 (0xd800 + high) ++ (unitEscape (0xdc00 + low) ++ rest))
      = some (.ofCodePoint (0x10000 + high * 0x400 + low), rest) := by
  rw [codeEscaped, unit_hexDigits (by omega)]
  simp only [Option.bind_eq_bind, Option.bind_some, unitEscape, List.cons_append]
  rw [if_pos (by omega), unit_hexDigits (by omega)]
  simp only [Nat.add_sub_cancel_left]
  rw [if_pos (by omega)]

/-- A part that is escaped is read again, a high surrogate if no low one follows. -/
lemma escape_writePart (hD : D.loneSurrogates = true) {es : List Char}
    (hwrite : writePart true p = '\\' :: es)
    (hrest : ∀ high : Fin 0x800, p = .half high → high.val < 0x400 → EndsPair rest) :
    escape D (es ++ rest) = some (p, rest) := by
  rcases writePart_cases p with ⟨c, -, hliteral, -, hself⟩ | ⟨letter, c, rfl, hletter, hescape⟩ |
    ⟨hcode, hescape⟩ | ⟨high, low, hhigh, hlow, hpart, hescape⟩
  · rw [hself, List.cons.injEq] at hwrite
    rw [hwrite.1] at hliteral
    exact absurd hliteral (by decide)
  all_goals
    rw [hescape] at hwrite
    obtain rfl := (List.cons.inj hwrite).2
  · have hread : ∀ e ∈ shortEscapes, escape D ([e.1] ++ rest) = some (.char e.2, rest) := by
      simp [shortEscapes, escape]
    exact hread _ hletter
  · rw [List.cons_append, escape, codeEscaped_unit hD hcode, Part.ofCodePoint_codePoint]
    intro hsurrogate
    cases p with
    | char c =>
      have hvalid : c.toNat < 0xd800 ∨ 0xdfff < c.toNat ∧ c.toNat < 0x110000 := c.valid
      simp only [Part.codePoint] at hsurrogate
      omega
    | half n =>
      simp only [Part.codePoint] at hsurrogate
      exact hrest n rfl (by omega)
  · change escape D ('u' :: (hexDigits 4 (0xd800 + high) ++ unitEscape (0xdc00 + low)) ++ rest) = _
    rw [List.cons_append, escape, List.append_assoc, codeEscaped_pair hhigh hlow, hpart]

end Parts

/-! ### What is read -/

section Texts

variable {D : Dialect} {ps : List Part} {rest : List Char}

/-- The parts of a text inside a JSON string that is all ASCII. -/
def escaped (ps : List Part) : List Char :=
  ps.flatMap (writePart true)

lemma toList_writeString_true (s : String) :
    (writeString true s).toList = '"' :: (escaped (parts s) ++ ['"']) := by
  have hplain : ∀ c ∈ escaped (parts s), IsPlain c := by
    intro c hc
    obtain ⟨p, -, hp⟩ := List.mem_flatMap.1 hc
    exact isPlain_of_lt ((toNat_of_mem_writePart hp).trans_lt (by norm_num))
  have hself := charsAfter_append_of_isPlain hplain []
  rw [List.append_nil, charsAfter, List.replicate_zero, List.append_nil] at hself
  rw [toList_writeString, ← escaped, hself]

lemma endsPair_escaped {high : Fin 0x800} (hps : (.half high :: ps).IsChain fun p q => ¬p.Joins q)
    (hhigh : high.val < 0x400) (rest : List Char) : EndsPair (escaped ps ++ '"' :: rest) := by
  cases ps with
  | nil => exact endsPair_cons (by decide) rest
  | cons q ps =>
    have hq := (List.isChain_cons_cons.1 hps).1
    rw [escaped, List.flatMap_cons, List.append_assoc]
    refine endsPair_writePart ?_ _
    rintro low rfl
    by_contra hlow
    exact hq ⟨hhigh, not_lt.1 hlow⟩

/-- A character that stands for itself may be read before the others of its piece. -/
lemma exists_stringBody_cons {c : Char} (hc : isLiteral c = true) (hplain : IsPlain c) (fuel : Nat)
    (before : List Part) (rest : List Char) : ∃ fuel', fuel ≤ fuel' ∧
      stringBody D (fuel + 1) before (c :: rest) = stringBody D fuel' (.char c :: before) rest := by
  have hpiece : ∀ {x : Char}, isLiteral x = true → ∀ (before : List Part) (cs : List Char),
      stringBody D (fuel + 1) before (x :: cs)
        = stringBody D fuel ((partsAfter 0 (x :: cs.takeWhile isLiteral)).reverse ++ before)
          (cs.dropWhile isLiteral) := by
    intro x hx before cs
    rw [stringBody]
    · rw [if_pos hx, parts_eq, String.toList_ofList]
    all_goals
      rintro rfl
      exact absurd hx (by decide)
  have hfirst : ∀ cs : List Char, (partsAfter 0 (c :: cs)).reverse ++ before
      = (partsAfter 0 cs).reverse ++ .char c :: before := by
    intro cs
    rw [partsAfter_cons hplain, List.replicate_zero, List.nil_append, List.reverse_cons,
      List.append_assoc, List.singleton_append]
  rw [hpiece hc, hfirst]
  cases rest with
  | nil => exact ⟨fuel, le_rfl, rfl⟩
  | cons d rest =>
    cases hd : isLiteral d with
    | false =>
      refine ⟨fuel, le_rfl, ?_⟩
      rw [List.takeWhile_cons_of_neg (by simp [hd]), List.dropWhile_cons_of_neg (by simp [hd])]
      rfl
    | true =>
      refine ⟨fuel + 1, Nat.le_succ fuel, ?_⟩
      rw [List.takeWhile_cons_of_pos hd, List.dropWhile_cons_of_pos hd, hpiece hd]

/-- The rest of a string is read after the parts before it. -/
lemma stringBody_escaped (hD : D.loneSurrogates = true)
    (hps : ps.IsChain fun p q => ¬p.Joins q) (rest : List Char) (before : List Part) {fuel : Nat}
    (hfuel : (escaped ps).length < fuel) :
    stringBody D fuel before (escaped ps ++ '"' :: rest)
      = some (ofParts (before.reverse ++ ps), rest) := by
  induction ps generalizing before fuel with
  | nil =>
    obtain ⟨fuel, rfl⟩ : ∃ f, fuel = f + 1 := ⟨fuel - 1, by omega⟩
    rw [List.append_nil]
    rfl
  | cons p ps ih =>
    obtain ⟨fuel, rfl⟩ : ∃ f, fuel = f + 1 := ⟨fuel - 1, by omega⟩
    have hothers : ∀ {fuel'}, (escaped ps).length < fuel' →
        stringBody D fuel' (p :: before) (escaped ps ++ '"' :: rest)
          = some (ofParts (before.reverse ++ p :: ps), rest) := by
      intro fuel' hfuel'
      rw [ih hps.tail (p :: before) hfuel', List.reverse_cons, List.append_assoc,
        List.singleton_append]
    have htext : escaped (p :: ps) = writePart true p ++ escaped ps := List.flatMap_cons
    rw [htext, List.length_append] at hfuel
    rw [htext, List.append_assoc]
    rcases writePart_literal_or_escape p with ⟨c, rfl, hc, hplain, hself⟩ | ⟨es, hescape⟩
    · rw [hself, List.length_singleton] at hfuel
      obtain ⟨fuel', hle, hread⟩ := exists_stringBody_cons (D := D) hc hplain fuel before
        (escaped ps ++ '"' :: rest)
      rw [hself, List.singleton_append, hread, hothers (by omega)]
    · have hread := escape_writePart hD hescape fun high hp hhigh =>
        endsPair_escaped (hp ▸ hps) hhigh rest
      rw [hescape, List.length_cons] at hfuel
      rw [hescape, List.cons_append, stringBody, hread]
      exact hothers (by omega)

/-- A joined text is read as it was written. -/
theorem stringBody_writeString_true (hD : D.loneSurrogates = true) {s : String} (h : IsJoined s)
    (rest : List Char) {fuel : Nat} (hfuel : (writeString true s).length ≤ fuel) :
    ∃ body, (writeString true s).toList = '"' :: body ∧
      stringBody D fuel [] (body ++ rest) = some (s, rest) := by
  have htext := toList_writeString_true s
  have hlength := congrArg List.length htext
  rw [String.length_toList, List.length_cons, List.length_append, List.length_singleton] at hlength
  refine ⟨_, htext, ?_⟩
  rw [List.append_assoc, List.singleton_append, stringBody_escaped hD h rest [] (by omega),
    List.reverse_nil, List.nil_append, ofParts_parts]

/-- The halves of a pair are written like the character that the pair is. -/
example : ¬IsJoined (ofParts [.half 0x3d, .half 0x600]) ∧
    escaped [.half 0x3d, .half 0x600] = escaped [.char '😀'] := by
  rw [IsJoined, parts_ofParts]
  decide

end Texts

end Json

end Workflow
