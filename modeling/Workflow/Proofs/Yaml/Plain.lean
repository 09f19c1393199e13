import Mathlib.Data.String.Basic
import Workflow.Proofs.Json.Number
import Workflow.Yaml.Plain

/-!
# Numbers of JSON as plain scalars

The text of an integer is a plain scalar that stands for it, and so is the text of a double if it
has a point. Without one it is a text and nothing else. None of them begins like one of the words
that stand for something else.
-/

namespace Workflow.Yaml

open Text Json

/-! ### Texts without a colon -/

section Split

open String

lemma splitOnAux_of_not_mem {c : Char} {rest : List Char} (h : c ∉ rest) (before : List Char) :
    splitOnAux (ofList (before ++ rest)) (ofList [c]) 0 ⟨utf8Len before⟩ 0 []
      = [ofList (before ++ rest)] := by
  induction rest generalizing before with
  | nil =>
    have hwhole := extract_of_valid [] before []
    simp only [List.append_nil, List.nil_append, utf8Len_nil, Nat.zero_add] at hwhole
    have hend : Pos.Raw.atEnd (ofList before) ⟨utf8Len before⟩ = true := by simp
    rw [List.append_nil, splitOnAux, if_pos hend]
    exact congrArg (fun part => [part]) hwhole
  | cons d rest ih =>
    rw [List.mem_cons, not_or] at h
    have hmore : ¬Pos.Raw.atEnd (ofList (before ++ d :: rest)) ⟨utf8Len before⟩ = true := by
      have hsize := Char.utf8Size_pos d
      rw [atEnd_iff, rawEndPos_ofList, utf8Len_append, utf8Len_cons, Pos.Raw.le_iff]
      dsimp only
      omega
    have hget : Pos.Raw.get (ofList (before ++ d :: rest)) ⟨utf8Len before⟩ = d :=
      get_of_valid before (d :: rest)
    have hseparator : Pos.Raw.get (ofList [c]) 0 = c := get_of_valid [] [c]
    have hne : ¬(d == c) = true := by simpa using Ne.symm h.1
    have hplace : (⟨utf8Len before⟩ : Pos.Raw).unoffsetBy 0 = ⟨utf8Len before⟩ := by
      simp [Pos.Raw.unoffsetBy]
    have hall := ih h.2 (before ++ [d])
    rw [List.append_assoc, List.singleton_append, utf8Len_append, utf8Len_cons, utf8Len_nil,
      Nat.zero_add] at hall
    rw [splitOnAux, if_neg hmore, hget, hseparator, if_neg hne, hplace, next_of_valid before d rest]
    exact hall

end Split

lemma colonParts_of_not_mem {cs : List Char} (h : ':' ∉ cs) : colonParts cs = [cs] := by
  have hsplit : (String.ofList cs).splitOn ":" = [String.ofList cs] :=
    splitOnAux_of_not_mem h []
  rw [colonParts, hsplit, List.map_singleton, String.toList_ofList]

/-! ### Digits -/

variable {cs tail : List Char} {c : Char} {negative : Bool}

lemma hexValue?_of_isDigit (h : c.isDigit = true) : hexValue? c = some (c.toNat - '0'.toNat) := by
  rw [Char.isDigit, Bool.and_eq_true, decide_eq_true_iff, decide_eq_true_iff] at h
  exact if_pos h

lemma digitsOf_of_isDigit (h : ∀ c ∈ cs, c.isDigit = true) : digitsOf cs = valuesOf cs := by
  rw [digitsOf, valuesOf, ← List.filterMap_eq_map]
  exact List.filterMap_congr fun c hc => hexValue?_of_isDigit (h c hc)

lemma isDigitOrLine_of_isDigit (h : c.isDigit = true) : isDigitOrLine c = true := by
  rw [isDigitOrLine, h, Bool.true_or]

lemma ne_of_isDigit (h : c.isDigit = true) {d : Char} (hd : d.isDigit = false) : c ≠ d := by
  rintro rfl
  rw [h] at hd
  cases hd

/-- A text that begins with a digit has no sign, and what stands before it is one. -/
lemma sign_of_isDigit (negative : Bool) (h : c.isDigit = true) (tail : List Char) :
    Literal.sign (if negative then '-' :: c :: tail else c :: tail) = (negative, c :: tail) := by
  cases negative with
  | true => rfl
  | false =>
    rw [if_neg Bool.false_ne_true, Literal.sign]
    all_goals
      rintro rest hrest
      obtain ⟨rfl, -⟩ := List.cons.inj hrest
      exact absurd h (by decide)

/-! ### Numbers -/

lemma isPositive_of_isWhole (h : IsWhole cs) (hzero : cs ≠ ['0']) : isPositive cs = true := by
  cases cs with
  | nil => exact absurd rfl h.nonempty
  | cons c tail =>
    have hne : c ≠ '0' := by
      rintro rfl
      exact hzero (h.first rfl)
    have hdigit := h.digits c List.mem_cons_self
    rw [Char.isDigit, Bool.and_eq_true, decide_eq_true_iff, decide_eq_true_iff] at hdigit
    have hlow : '1' ≤ c := by
      have hval : c.toNat ≠ '0'.toNat := fun hval => hne (Char.toNat_inj.1 hval)
      have hzero : '0'.toNat ≤ c.toNat := hdigit.1
      exact Nat.lt_of_le_of_ne hzero (Ne.symm hval)
    have hhigh : c ≤ '9' := hdigit.2
    have hothers : tail.all isDigitOrLine = true := List.all_eq_true.2 fun x hx =>
      isDigitOrLine_of_isDigit (h.digits x (List.mem_cons_of_mem c hx))
    simp [isPositive, hlow, hhigh, hothers]

/-- An integer of JSON is one of YAML. -/
lemma unsignedInteger?_of_isWhole (h : IsWhole cs)
    (hlength : cs.length ≤ Literal.maxIntegerDigits) :
    unsignedInteger? negative cs
      = some (.ok (Double.signed negative (digitsValue (valuesOf cs)))) := by
  by_cases hzero : cs = ['0']
  · subst hzero
    cases negative <;> rfl
  · have hfirst : ∀ tail, cs ≠ '0' :: tail := fun tail htail =>
      hzero (h.first (by rw [htail, List.head?_cons]))
    have hcolon : ':' ∉ cs := fun hmem => absurd (h.digits ':' hmem) (by decide)
    have hlength : (valuesOf cs).length ≤ Literal.maxIntegerDigits := by rwa [length_valuesOf]
    have hsome : valuesOf cs ≠ [] := fun hnil => h.nonempty (List.map_eq_nil_iff.1 hnil)
    have hinteger : integerOf negative 10 (valuesOf cs)
        = .ok (Double.signed negative (digitsValue (valuesOf cs))) := by
      simp [integerOf, hsome, Nat.not_lt.2 hlength, digitsValue]
    rw [unsignedInteger?]
    · rw [colonParts_of_not_mem hcolon]
      simp only [isPositive_of_isWhole h hzero, if_true, digitsOf_of_isDigit h.digits, hinteger]
    · exact hfirst []
    · exact fun ds => hfirst _
    · exact fun ds => hfirst _
    · exact hfirst

/-- The texts that begin like a number: with a digit or a minus. -/
def beginsNumber (cs : List Char) : Bool :=
  cs.head?.any fun c => c = '-' || c.isDigit

/-- A text that begins like a number is none of some words that do not. -/
lemma not_contains_of_beginsNumber {s : String} (h : beginsNumber s.toList = true)
    {w : List String} (hwords : w.all fun word => !beginsNumber word.toList) :
    w.contains s = false := by
  rw [Bool.eq_false_iff, Ne, List.contains_iff_mem]
  intro hmem
  have hnot := List.all_eq_true.1 hwords s hmem
  rw [h] at hnot
  cases hnot

lemma boolean?_of_beginsNumber {s : String} (h : beginsNumber s.toList = true) :
    boolean? s = none := by
  rw [boolean?, not_contains_of_beginsNumber h, not_contains_of_beginsNumber h]
  · rfl
  all_goals decide

section Document

variable {s : String} {x : Float} {n : Int}

lemma not_sign_of_beginsNumber (h : beginsNumber s.toList = true) : ¬(s = "=" ∨ s = "<<") := by
  have hsigns := not_contains_of_beginsNumber h (w := ["=", "<<"]) (by decide)
  simpa using hsigns

lemma plainDocument_of_double (h : beginsNumber s.toList = true)
    (hdouble : double? s.toList = some (.ok x)) : plainDocument s = .ok (.float x) := by
  rw [plainDocument, not_contains_of_beginsNumber h (by decide)]
  simp only [Bool.false_eq_true, if_false, Bool.or_eq_true, decide_eq_true_iff,
    not_sign_of_beginsNumber h, boolean?_of_beginsNumber h, hdouble]
  rfl

lemma plainDocument_of_integer (h : beginsNumber s.toList = true)
    (hdouble : double? s.toList = none) (hinteger : integer? s.toList = some (.ok n)) :
    plainDocument s = .ok (.int n) := by
  rw [plainDocument, not_contains_of_beginsNumber h (by decide)]
  simp only [Bool.false_eq_true, if_false, Bool.or_eq_true, decide_eq_true_iff,
    not_sign_of_beginsNumber h, boolean?_of_beginsNumber h, hdouble, hinteger]
  rfl

lemma beginsNumber_of_isDigit (h : c.isDigit = true) :
    beginsNumber (if negative then '-' :: c :: tail else c :: tail) = true := by
  cases negative with
  | true => rfl
  | false => simp [beginsNumber, h]

lemma ne_point_of_isDigit (h : c.isDigit = true) : decide (c ≠ '.') = true := by
  rw [decide_eq_true_iff]
  rintro rfl
  exact absurd h (by decide)

/-- **The text of an integer stands for it.** -/
lemma plainDocument_int (h : Double.digitCount n.natAbs ≤ Literal.maxIntegerDigits) :
    plainDocument (toString n) = .ok (.int n) := by
  have hwhole := isWhole_toDigits n.natAbs
  obtain ⟨c, tail, hdigits⟩ := List.exists_cons_of_ne_nil hwhole.nonempty
  have hc : c.isDigit = true := hwhole.digits c (by rw [hdigits]; exact List.mem_cons_self)
  have htext := toList_toString_int n
  rw [hdigits] at htext
  have hinteger : unsignedInteger? (decide (n < 0)) (c :: tail) = some (.ok n) := by
    rw [← hdigits, unsignedInteger?_of_isWhole hwhole h, digitsValue_toDigits, signed_natAbs]
  apply plainDocument_of_integer
  · rw [htext]
    exact beginsNumber_of_isDigit hc
  · have hpoint : (c :: tail).dropWhile (· ≠ '.') = [] := by
      rw [List.dropWhile_eq_nil_iff, ← hdigits]
      exact fun x hx => ne_point_of_isDigit (hwhole.digits x hx)
    rw [htext]
    simp only [double?, sign_of_isDigit _ hc, hpoint]
  · rw [htext, integer?, sign_of_isDigit _ hc, hinteger]

/-- An exponent always has a sign, as it must. -/
lemma exponent?_exponentChars (L : DoubleLayout) (t : DoubleLayout.Spelling) :
    exponent? (t.exponentChars L) = some (t.exponent?.getD 0) := by
  rw [DoubleLayout.Spelling.exponentChars]
  cases t.exponent? with
  | none => rfl
  | some e =>
    obtain ⟨ds, htext, hdigits, hne, hvalue⟩ := exists_exponentText L e
    have hall : ds.all Char.isDigit = true := List.all_eq_true.2 hdigits
    have hsigned := signed_natAbs e
    rw [Option.elim_some, htext, Option.getD_some]
    by_cases hnegative : e < 0
    · rw [decide_eq_true hnegative] at hsigned
      simp [exponent?, hnegative, hne, hall, digitsOf_of_isDigit hdigits, hvalue, hsigned]
    · rw [decide_eq_false hnegative] at hsigned
      simp [exponent?, hnegative, hne, hall, digitsOf_of_isDigit hdigits, hvalue, hsigned]

/-- What follows the point of a double is read as digits and an exponent. -/
lemma pointed?_spelling (L : DoubleLayout) (t : DoubleLayout.Spelling) :
    pointed? t.whole (t.fraction ++ t.exponentChars L) = some t.literal.toDouble := by
  have hdigits : ∀ c ∈ t.fraction, isDigitOrLine c = true := fun c hc =>
    isDigitOrLine_of_isDigit (t.digits c hc)
  have hends : (t.exponentChars L).takeWhile isDigitOrLine = [] ∧
      (t.exponentChars L).dropWhile isDigitOrLine = t.exponentChars L := by
    rw [DoubleLayout.Spelling.exponentChars]
    cases t.exponent? with
    | none => exact ⟨rfl, rfl⟩
    | some e => exact ⟨rfl, rfl⟩
  rw [pointed?, List.dropWhile_append_of_pos hdigits, List.takeWhile_append_of_pos hdigits, hends.1,
    hends.2, exponent?_exponentChars, List.append_nil, digitsOf_of_isDigit t.digits,
    digitsOf_of_isDigit t.isWhole.digits]
  rfl

lemma not_mem_exponentText (L : DoubleLayout) (e : Int) (hc : c.isDigit = false)
    (hsigns : c ≠ '-' ∧ c ≠ '+') : c ∉ L.exponentText e := by
  obtain ⟨ds, htext, hdigits, -, -⟩ := exists_exponentText L e
  rw [htext, List.mem_cons, not_or]
  refine ⟨?_, fun hmem => ne_of_isDigit (hdigits c hmem) hc rfl⟩
  split_ifs
  · exact hsigns.1
  · exact hsigns.2

/-- A point in the text of a double is the one before its fraction. -/
lemma chars_of_point {L : DoubleLayout} {t : DoubleLayout.Spelling} (h : '.' ∈ t.chars L) :
    t.chars L = t.whole ++ '.' :: (t.fraction ++ t.exponentChars L) := by
  have hwhole : '.' ∉ t.whole := fun hmem => absurd (t.isWhole.digits _ hmem) (by decide)
  have hexponent : '.' ∉ t.exponentChars L := by
    rw [DoubleLayout.Spelling.exponentChars]
    cases t.exponent? with
    | none => exact List.not_mem_nil
    | some e =>
      rw [Option.elim_some, List.mem_cons, not_or]
      exact ⟨by decide, not_mem_exponentText L e rfl (by decide)⟩
  have hfraction : t.fraction ≠ [] := by
    intro hnil
    simp [DoubleLayout.Spelling.chars, DoubleLayout.Spelling.fractionChars, hnil, hwhole,
      hexponent] at h
  rw [DoubleLayout.Spelling.chars, DoubleLayout.Spelling.fractionChars, if_neg hfraction,
    List.cons_append]

lemma double?_spelling {L : DoubleLayout} {t : DoubleLayout.Spelling} (h : '.' ∈ t.chars L)
    (negative : Bool) :
    double? (if negative then '-' :: t.chars L else t.chars L)
      = some (.ok (Double.withSign negative t.literal.toDouble)) := by
  have hpoint : ∀ x ∈ t.whole, decide (x ≠ '.') = true := fun x hx =>
    ne_point_of_isDigit (t.isWhole.digits x hx)
  have hlines : t.whole.all isDigitOrLine = true := List.all_eq_true.2 fun x hx =>
    isDigitOrLine_of_isDigit (t.isWhole.digits x hx)
  have hpointed := pointed?_spelling L t
  rw [chars_of_point h]
  obtain ⟨c, tail, hwhole⟩ := List.exists_cons_of_ne_nil t.isWhole.nonempty
  have hc : c.isDigit = true := t.isWhole.digits c (by rw [hwhole]; exact List.mem_cons_self)
  have hsign := sign_of_isDigit negative hc
    (tail ++ '.' :: (t.fraction ++ t.exponentChars L))
  rw [← List.cons_append, ← hwhole] at hsign
  have htake : (t.whole ++ '.' :: (t.fraction ++ t.exponentChars L)).takeWhile (· ≠ '.')
      = t.whole := by
    rw [List.takeWhile_append_of_pos hpoint]
    exact List.append_nil _
  have hdrop : (t.whole ++ '.' :: (t.fraction ++ t.exponentChars L)).dropWhile (· ≠ '.')
      = '.' :: (t.fraction ++ t.exponentChars L) := by
    rw [List.dropWhile_append_of_pos hpoint]
    rfl
  have hempty : t.whole.isEmpty = false := by rw [hwhole, List.isEmpty_cons]
  have hhead : t.whole.head?.any Char.isDigit = true := by
    rw [hwhole, List.head?_cons, Option.any_some, hc]
  simp only [double?, hsign, htake, hdrop, hempty, hhead, hlines, hpointed]
  rfl

/-- **The text of a double stands for it if it has a point.** -/
lemma plainDocument_float (hx : Double.isFinite x = true)
    (hpoint : '.' ∈ (DoubleLayout.saved.text x).toList) :
    plainDocument (DoubleLayout.saved.text x) = .ok (.float x) := by
  obtain ⟨negative, t, htext, hvalue⟩ := DoubleLayout.exists_text DoubleLayout.highest_saved hx
  have hchars : '.' ∈ t.chars DoubleLayout.saved := by
    rw [htext] at hpoint
    cases negative with
    | true => simpa using hpoint
    | false => exact hpoint
  obtain ⟨c, tail, hwhole⟩ := List.exists_cons_of_ne_nil t.isWhole.nonempty
  have hc : c.isDigit = true := t.isWhole.digits c (by rw [hwhole]; exact List.mem_cons_self)
  apply plainDocument_of_double
  · rw [htext, DoubleLayout.Spelling.chars, hwhole]
    exact beginsNumber_of_isDigit hc
  · rw [htext, double?_spelling hchars, hvalue]

/-! ### Doubles without a point -/

/-- A date does not begin with digits and another character than the one between its parts. -/
lemma takeThree_eq_none {between : Char} (hcs : ∀ c ∈ cs, c.isDigit = true) (hc : c.isDigit = false)
    (hbetween : between.isDigit = false) (hne : between ≠ c) (first second third : Nat × Nat) :
    takeThree between first second third (cs ++ c :: tail) = none := by
  have htaken : ((cs ++ c :: tail).take first.2).takeWhile Char.isDigit = cs.take first.2 := by
    have hdigits : ∀ x ∈ cs.take first.2, x.isDigit = true := fun x hx =>
      hcs x (List.mem_of_mem_take hx)
    rw [List.take_append, List.takeWhile_append_of_pos hdigits]
    cases first.2 - cs.length <;> simp [hc]
  have hrest : ∃ d rest, (cs ++ c :: tail).drop (cs.take first.2).length = d :: rest ∧
      between ≠ d := by
    rw [List.drop_append_of_le_length (by rw [List.length_take]; omega)]
    cases hafter : cs.drop (cs.take first.2).length with
    | nil => exact ⟨c, tail, rfl, hne⟩
    | cons d rest =>
      have hd : d ∈ cs := List.mem_of_mem_drop (hafter ▸ List.mem_cons_self)
      exact ⟨d, rest ++ c :: tail, rfl, (ne_of_isDigit (hcs d hd) hbetween).symm⟩
  obtain ⟨d, rest, hrest, hd⟩ := hrest
  simp only [takeThree, takeDigits, htaken, hrest]
  split_ifs
  · rfl
  · simp [takeChar, hd]

lemma moment?_exponent (hcs : ∀ c ∈ cs, c.isDigit = true) :
    moment? (if negative then '-' :: (cs ++ 'e' :: tail) else cs ++ 'e' :: tail) = none := by
  have hnone : ∀ second third : Nat × Nat, takeThree '-' (4, 4) second third
      (if negative then '-' :: (cs ++ 'e' :: tail) else cs ++ 'e' :: tail) = none := by
    intro second third
    cases negative with
    | true => rfl
    | false => exact takeThree_eq_none hcs rfl rfl (by decide) _ _ _
  simp only [moment?, hnone]
  rfl

lemma unsignedInteger?_exponent (h : IsWhole cs) (hcolon : ':' ∉ tail) :
    unsignedInteger? negative (cs ++ 'e' :: tail) = none := by
  by_cases hzero : cs = ['0']
  · subst hzero
    rfl
  · have hfirst : ∀ rest, cs ++ 'e' :: tail ≠ '0' :: rest := by
      intro rest hrest
      have hhead := congrArg List.head? hrest
      rw [List.head?_append_of_ne_nil _ h.nonempty, List.head?_cons] at hhead
      exact hzero (h.first hhead)
    have hall : ':' ∉ cs ++ 'e' :: tail := by
      have hdigits : ':' ∉ cs := fun hmem => absurd (h.digits ':' hmem) (by decide)
      simp [hdigits, hcolon]
    have hnot : isPositive (cs ++ 'e' :: tail) = false := by
      obtain ⟨c, rest, rfl⟩ := List.exists_cons_of_ne_nil h.nonempty
      have hletter : isDigitOrLine 'e' = false := by decide
      simp [isPositive, hletter]
    rw [unsignedInteger?]
    · rw [colonParts_of_not_mem hall]
      simp only [hnot, Bool.false_eq_true, if_false]
    · exact hfirst []
    · exact fun ds => hfirst _
    · exact fun ds => hfirst _
    · exact hfirst

lemma plainDocument_of_neither (h : beginsNumber s.toList = true)
    (hdouble : double? s.toList = none) (hinteger : integer? s.toList = none)
    (hmoment : moment? s.toList = none) :
    plainDocument s = .ok (.str s) := by
  rw [plainDocument, not_contains_of_beginsNumber h (by decide)]
  simp only [Bool.false_eq_true, if_false, Bool.or_eq_true, decide_eq_true_iff,
    not_sign_of_beginsNumber h, boolean?_of_beginsNumber h, hdouble, hinteger, hmoment]

/-- Without a point, the text of a double is digits with an exponent behind them. -/
lemma exists_pointless (hx : Double.isFinite x = true)
    (hpoint : '.' ∉ (DoubleLayout.saved.text x).toList) :
    ∃ (negative : Bool) (t : DoubleLayout.Spelling) (e : Int),
      (DoubleLayout.saved.text x).toList
        = (if negative then '-' :: (t.whole ++ 'e' :: DoubleLayout.saved.exponentText e)
          else t.whole ++ 'e' :: DoubleLayout.saved.exponentText e) ∧
      t.fraction = [] ∧ t.exponent? = some e ∧
      Double.withSign negative t.literal.toDouble = x := by
  obtain ⟨negative, t, htext, hvalue⟩ := DoubleLayout.exists_text DoubleLayout.highest_saved hx
  have hfraction : t.fraction = [] := by
    by_contra hne
    apply hpoint
    rw [htext]
    cases negative <;>
      simp [DoubleLayout.Spelling.chars, DoubleLayout.Spelling.fractionChars, hne]
  obtain ⟨e, hexponent⟩ := Option.isSome_iff_exists.1 (t.isDouble hfraction)
  refine ⟨negative, t, e, ?_, hfraction, hexponent, hvalue⟩
  simp [htext, DoubleLayout.Spelling.chars, DoubleLayout.Spelling.fractionChars,
    DoubleLayout.Spelling.exponentChars, hfraction, hexponent]

/-- **The text of a double without a point stands for itself.** -/
lemma plainDocument_pointless (hx : Double.isFinite x = true)
    (hpoint : '.' ∉ (DoubleLayout.saved.text x).toList) :
    plainDocument (DoubleLayout.saved.text x) = .ok (.str (DoubleLayout.saved.text x)) := by
  obtain ⟨negative, t, e, htext, -⟩ := exists_pointless hx hpoint
  obtain ⟨c, tail, hwhole⟩ := List.exists_cons_of_ne_nil t.isWhole.nonempty
  have hc : c.isDigit = true := t.isWhole.digits c (by rw [hwhole]; exact List.mem_cons_self)
  have hsign := sign_of_isDigit negative hc (tail ++ 'e' :: DoubleLayout.saved.exponentText e)
  rw [← List.cons_append, ← hwhole] at hsign
  have hdrop : (t.whole ++ 'e' :: DoubleLayout.saved.exponentText e).dropWhile (· ≠ '.') = [] := by
    rw [List.dropWhile_eq_nil_iff]
    intro d hd
    rw [decide_eq_true_iff]
    rintro rfl
    apply hpoint
    rw [htext]
    cases negative with
    | true => exact List.mem_cons_of_mem _ hd
    | false => exact hd
  apply plainDocument_of_neither
  · rw [htext, hwhole]
    exact beginsNumber_of_isDigit hc
  · rw [htext]
    simp only [double?, hsign, hdrop]
  · rw [htext, integer?, hsign]
    exact unsignedInteger?_exponent t.isWhole (not_mem_exponentText _ e rfl (by decide))
  · rw [htext]
    exact moment?_exponent t.isWhole.digits

lemma plainDocument_null : plainDocument "null" = .ok .null := rfl

lemma plainDocument_bool (b : Bool) :
    plainDocument (if b then "true" else "false") = .ok (.bool b) := by
  cases b <;> rfl

end Document

end Workflow.Yaml
