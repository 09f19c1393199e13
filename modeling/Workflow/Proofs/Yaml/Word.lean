import Workflow.Proofs.Yaml.Scan

/-!
# Plain scalars in flow collections

The numbers and the three words of a JSON text are plain scalars. Such a scalar ends at a comma, or
at the bracket after the line break that follows it, and that break is no part of it.
-/

namespace Workflow.Yaml

open Text Json

/-- What follows a value inside a list or an object: a comma, or a bracket on a line of its own. -/
inductive EndsValue : List Char → Prop where
  | comma (rest : List Char) : EndsValue (',' :: rest)
  | bracket (depth : Nat) {c : Char} (hc : c = ']' ∨ c = '\x7d') (rest : List Char) :
    EndsValue (breakChars depth ++ c :: rest)

/-- A character that a plain scalar in a flow collection may hold anywhere. -/
def isWordChar (c : Char) : Bool :=
  !isSpace c && !isBreak c && c ≠ ':' && c ≠ '#' && !endsFlowScalar c

/-! ### The end of a plain scalar -/

variable {cs rest : List Char} {c : Char}

lemma plainLength_append (hcs : ∀ c ∈ cs, isWordChar c = true) (hrest : plainLength true rest = 0) :
    plainLength true (cs ++ rest) = cs.length := by
  induction cs with
  | nil => exact hrest
  | cons c cs ih =>
    obtain ⟨hc, hcs⟩ := List.forall_mem_cons.1 hcs
    simp only [isWordChar, Bool.and_eq_true, Bool.not_eq_true', decide_eq_true_iff] at hc
    obtain ⟨⟨⟨⟨hspace, hbreak⟩, hcolon⟩, -⟩, hends⟩ := hc
    rw [List.cons_append, plainLength, List.length_cons]
    simp [hspace, hbreak, hcolon, hends, ih hcs]

lemma blankLines_spaces (n : Nat) (hspace : c ≠ ' ') (hbreak : isBreak c = false) :
    blankLines (List.replicate n ' ' ++ c :: rest) = (some [], c :: rest) := by
  induction n with
  | zero => simp [blankLines, hspace, hbreak]
  | succ n ih =>
    rw [List.replicate_succ, List.cons_append, blankLines, if_pos rfl, ih]

/-- The gap after a value leaves nothing of itself, or a space before a bracket. -/
lemma exists_plainGap (h : EndsValue rest) :
    ∃ text c after broken, plainGap rest = ⟨text, c :: after, broken⟩ ∧
      dropGap rest = c :: after ∧ (text ≠ [] → endsFlowScalar c = true) ∧
      plainLength true rest = 0 ∧ ∃ gap, rest = gap ++ c :: after := by
  cases h with
  | comma after =>
    exact ⟨[], ',', after, false, rfl, rfl, fun h => absurd rfl h, rfl, [], rfl⟩
  | @bracket depth c hc after =>
    refine ⟨[' '], c, after, true, ?_, ?_, fun _ => ?_, rfl, breakChars depth, rfl⟩
    · have hseparator : atSeparator (List.replicate (2 * depth) ' ' ++ c :: after) = false := by
        rcases hc with rfl | rfl <;> cases depth <;> rfl
      have hblank : blankLines (List.replicate (2 * depth) ' ' ++ c :: after)
          = (some [], c :: after) := by
        rcases hc with rfl | rfl <;> exact blankLines_spaces _ (by decide) (by decide)
      have hdrop : (breakChars depth ++ c :: after).dropWhile (· = ' ')
          = '\n' :: (List.replicate (2 * depth) ' ' ++ c :: after) := rfl
      have hline : isBreak '\n' = true := rfl
      simp [plainGap, hdrop, hline, hseparator, hblank, foldBreaks, breakText]
    · rw [dropGap_breakChars]
      rcases hc with rfl | rfl <;> rfl
    · rcases hc with rfl | rfl <;> rfl

/-! ### Words -/

/-- A text that begins with a letter or a digit, perhaps behind a minus. -/
inductive BeginsWord : List Char → Prop where
  | plain {c : Char} (h : c.isAlphanum = true) (cs : List Char) : BeginsWord (c :: cs)
  | minus {c : Char} (h : c.isAlphanum = true) (cs : List Char) : BeginsWord ('-' :: c :: cs)

lemma ne_of_isAlphanum {d : Char} (h : c.isAlphanum = true) (hd : d.isAlphanum = false) :
    c ≠ d := by
  rintro rfl
  rw [h] at hd
  cases hd

lemma not_mem_of_isAlphanum (h : c.isAlphanum = true) {marks : List Char}
    (hmarks : marks.any Char.isAlphanum = false) : c ∉ marks :=
  fun hc => by simpa [h] using List.any_eq_false.1 hmarks c hc

lemma endsWord_of_isAlphanum (h : c.isAlphanum = true) (rest : List Char) :
    endsWord (c :: rest) = false := by
  have hmarks : c ∉ [' ', '\t', '\n', '\x85', '\u2028', '\u2029'] :=
    not_mem_of_isAlphanum h rfl
  simp only [List.mem_cons, not_or] at hmarks
  simp [endsWord, isSpace, isBreak, hmarks]

lemma BeginsWord.beginsToken (h : BeginsWord (c :: rest)) : BeginsToken c := by
  cases h with
  | plain h =>
    have hmarks : c ∉ [' ', '#', '\n', '\x85', '\u2028', '\u2029'] := not_mem_of_isAlphanum h rfl
    simp only [List.mem_cons, not_or] at hmarks
    exact ⟨hmarks.1, by simp [isBreak, hmarks], hmarks.2.1⟩
  | minus h rest => exact ⟨by decide, by decide, by decide⟩

lemma BeginsWord.append (h : BeginsWord cs) (rest : List Char) : BeginsWord (cs ++ rest) := by
  cases h with
  | plain h cs => exact .plain h (cs ++ rest)
  | minus h cs => exact .minus h (cs ++ rest)

namespace Scan

variable {s : Scan} {flow : Nat} {named : Bool} {tokens : List Token}

lemma next_plain (h : BeginsWord (c :: rest)) : s.next c rest = s.plainScalar := by
  cases h with
  | plain h =>
    have hmarks : c ∉ '.' :: indicators := not_mem_of_isAlphanum h rfl
    have hends : endsWord (c :: rest) = false := endsWord_of_isAlphanum h rest
    rw [endsWord] at hends
    simp only [indicators, List.mem_cons, not_or] at hmarks
    simp [Scan.next, startsPlain, indicators, hmarks, hends]
  | @minus d h rest =>
    have hseparator : atSeparator ('-' :: d :: rest) = false := by
      unfold atSeparator
      split
      · next hdashes =>
        obtain ⟨-, hd⟩ := List.cons.inj hdashes
        exact absurd (List.cons.inj hd).1 (ne_of_isAlphanum h rfl)
      · next hpoints => exact absurd (List.cons.inj hpoints).1 (by decide)
      · rfl
    simp [Scan.next, startsPlain, hseparator, endsWord_of_isAlphanum h rest]

/-- A plain scalar in a flow collection ends before what ends a value. -/
lemma exists_scanPlain {cursor : Cursor} (hcs : ∀ c ∈ cs, isWordChar c = true)
    (hne : cs ≠ []) (hends : EndsValue rest) (hrest : cursor.rest = cs ++ rest)
    (indent fuel : Nat) :
    ∃ cursor' broken, scanPlain true indent (fuel + 1) [] ⟨[], cursor.rest, false⟩ cursor
        = ⟨cs, cursor', broken⟩ ∧
      cursor'.rest = dropGap rest ∧ cursor'.rest.length ≤ rest.length := by
  obtain ⟨text, c, after, broken, hgap, hdrop, hclosing, hnone, gap, hsplit⟩ :=
    exists_plainGap hends
  have hskip : (cursor.skipTo (c :: after)).rest = c :: after := by
    rw [hsplit, ← List.append_assoc] at hrest
    rw [Cursor.skipTo_of_append hrest]
  refine ⟨cursor.skipTo (c :: after), broken, ?_, hskip.trans hdrop.symm, ?_⟩
  · have hlength : plainLength true (cs ++ rest) = cs.length := plainLength_append hcs hnone
    have hhead : (cs ++ rest).head? ≠ some '#' := by
      obtain ⟨d, ds, rfl⟩ := List.exists_cons_of_ne_nil hne
      rw [List.cons_append, List.head?_cons]
      rintro ⟨⟩
      exact absurd (hcs '#' List.mem_cons_self) (by decide)
    have hpositive : cs.length ≠ 0 := mt List.length_eq_zero_iff.1 hne
    rw [scanPlain]
    simp only [hrest, hlength, hhead, hpositive, List.take_left, List.drop_left,
      hgap, List.nil_append]
    cases text with
    | nil => rfl
    | cons t ts =>
      have hzero : plainLength true (c :: after) = 0 := by
        simp [plainLength, hclosing (List.cons_ne_nil t ts)]
      cases fuel with
      | zero => rfl
      | succ fuel => simp [scanPlain, hskip, hzero]
  · rw [hskip, hsplit, List.length_append]
    exact Nat.le_add_left _ _

/-- A word becomes a token. -/
lemma Reaches.word (h : s.Reaches (flow + 1) named tokens (cs ++ rest))
    (hcs : ∀ c ∈ cs, isWordChar c = true) (hbegins : BeginsWord cs) (hends : EndsValue rest) :
    s.Reaches (flow + 1) false (.scalar (ofChars cs) .plain :: tokens) rest := by
  have hne : cs ≠ [] := by
    rintro rfl
    cases hbegins
  obtain ⟨c, cs, rfl⟩ := List.exists_cons_of_ne_nil hne
  have hbegins : BeginsWord (c :: (cs ++ rest)) := hbegins.append rest
  rw [List.cons_append] at h
  refine h.next hbegins.beginsToken fun s' hat hrest => ?_
  obtain ⟨keys, hmark, hoptional, -⟩ := hat.toIsFree.exists_markKey
  obtain ⟨cursor, broken, hscan, hcursor, hless⟩ :=
    exists_scanPlain hcs hne hends hrest s'.margin (cs ++ rest).length
  let after : Scan := { s' with
    cursor := cursor, allowsKey := broken, keys := keys,
    tokens := .scalar (ofChars (c :: cs)) .plain :: s'.tokens }
  have hplain : s'.plainScalar = .ok after := by
    have hflow : decide (s'.flow ≠ 0) = true := by simp [hat.flow_eq]
    have hfuel : s'.cursor.rest.length = (cs ++ rest).length + 1 := by rw [hrest, List.length_cons]
    have hmargin : { s' with keys := keys }.margin = s'.margin := rfl
    rw [plainScalar, hmark]
    simp only [bind, Except.bind, hflow, hfuel, hmargin, hscan]
    rfl
  refine ⟨after, (next_plain hbegins).trans hplain, ?_, ⟨hat.indents, hoptional⟩, hat.flow_eq,
    fun hfalse => absurd hfalse Bool.false_ne_true, congrArg _ hat.tokens_eq, ?_⟩
  · rw [List.length_append]
    exact hless.trans (Nat.le_add_left _ _)
  · rw [hcursor, dropGap_dropGap]

end Scan

end Workflow.Yaml
