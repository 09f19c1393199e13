import Workflow.Json.Reader
import Workflow.Number.Layout
import Workflow.Proofs.Number.Shortest

/-!
# Numbers are read as they were written

An integer is written by its digits. A double is written by the digits of its shortest decimal,
which rounds to it, so that reading them makes the double again. What follows a number must not go
on with it.
-/

namespace Workflow

/-! ### The value of digits -/

namespace Text

/-- The values of decimal digits. -/
def valuesOf (cs : List Char) : List Nat :=
  cs.map fun c => c.toNat - '0'.toNat

lemma length_valuesOf (cs : List Char) : (valuesOf cs).length = cs.length :=
  List.length_map _

lemma valuesOf_append (cs ds : List Char) : valuesOf (cs ++ ds) = valuesOf cs ++ valuesOf ds :=
  List.map_append

lemma valuesOf_replicate_zero (k : Nat) :
    valuesOf (List.replicate k '0') = List.replicate k 0 := by
  rw [valuesOf, List.map_replicate]
  rfl

lemma digitsValue_concat (ds : List Nat) (d : Nat) :
    digitsValue (ds ++ [d]) = 10 * digitsValue ds + d := by
  rw [digitsValue, List.foldl_append]
  rfl

lemma digitsValue_append (a b : List Nat) :
    digitsValue (a ++ b) = digitsValue a * 10 ^ b.length + digitsValue b := by
  induction b using List.reverseRecOn with
  | nil => simp [digitsValue]
  | append_singleton b d ih =>
    rw [← List.append_assoc, digitsValue_concat, ih, digitsValue_concat, List.length_append,
      List.length_singleton, pow_succ]
    ring

lemma digitsValue_zeros (k : Nat) : digitsValue (List.replicate k 0) = 0 := by
  induction k with
  | zero => rfl
  | succ k ih => exact ih

lemma digitsValue_toDigits (n : Nat) : digitsValue (valuesOf (Nat.toDigits 10 n)) = n := by
  have h := Nat.ofDigitChars_ten_toDigits (n := n)
  rw [Nat.ofDigitChars] at h
  rw [digitsValue, valuesOf, List.foldl_map]
  exact h

end Text

/-! ### The parts of a number -/

namespace Json

open Text

variable {D : Dialect} {cs rest : List Char} {negative : Bool}

/-- No digit follows. -/
def EndsDigits (rest : List Char) : Prop :=
  ∀ c ∈ rest.head?, c.isDigit = false

/-- Nothing follows that a number would go on with. -/
structure EndsNumber (rest : List Char) : Prop where
  digit : EndsDigits rest
  point : rest.head? ≠ some '.'
  lower : rest.head? ≠ some 'e'
  upper : rest.head? ≠ some 'E'

lemma endsDigits_cons {c : Char} (hc : c.isDigit = false) (rest : List Char) :
    EndsDigits (c :: rest) := by
  intro c' hc'
  obtain rfl : c = c' := Option.some.inj hc'
  exact hc

/-- Digits as the whole part of a number: a zero alone, or digits that begin with another one. -/
structure IsWhole (cs : List Char) : Prop where
  digits : ∀ c ∈ cs, c.isDigit = true
  nonempty : cs ≠ []
  first : cs.head? = some '0' → cs = ['0']

lemma digits_append (hcs : ∀ c ∈ cs, c.isDigit = true) (hrest : EndsDigits rest) :
    digits (cs ++ rest) = (valuesOf cs, rest) := by
  have hrest : rest.takeWhile Char.isDigit = [] ∧ rest.dropWhile Char.isDigit = rest := by
    cases rest with
    | nil => exact ⟨rfl, rfl⟩
    | cons c rest =>
      have hc : c.isDigit = false := hrest c rfl
      constructor <;> simp [hc]
  rw [digits, List.takeWhile_append_of_pos hcs, List.dropWhile_append_of_pos hcs, hrest.1, hrest.2,
    List.append_nil, valuesOf]

lemma digits_append_of_ne_nil (hcs : ∀ c ∈ cs, c.isDigit = true) (hne : cs ≠ [])
    (hrest : EndsDigits rest) :
    ∃ d ds, digits (cs ++ rest) = (d :: ds, rest) ∧ valuesOf cs = d :: ds := by
  rw [digits_append hcs hrest]
  cases cs with
  | nil => exact absurd rfl hne
  | cons c cs => exact ⟨_, _, rfl, rfl⟩

lemma whole_append (hcs : IsWhole cs) (hrest : EndsDigits rest) :
    whole (cs ++ rest) = some (valuesOf cs, rest) := by
  by_cases hzero : cs = ['0']
  · subst hzero
    rfl
  · obtain ⟨d, ds, hdigits, hvalues⟩ := digits_append_of_ne_nil hcs.digits hcs.nonempty hrest
    rw [whole]
    · rw [hdigits, hvalues]
    · intro after hafter
      cases cs with
      | nil => exact hcs.nonempty rfl
      | cons c cs =>
        obtain ⟨rfl, -⟩ := List.cons.inj hafter
        exact hzero (hcs.first rfl)

lemma fraction_append (hcs : ∀ c ∈ cs, c.isDigit = true) (hne : cs ≠ []) (hrest : EndsDigits rest) :
    fraction ('.' :: (cs ++ rest)) = some (valuesOf cs, rest) := by
  obtain ⟨d, ds, hdigits, hvalues⟩ := digits_append_of_ne_nil hcs hne hrest
  rw [fraction, hdigits, hvalues]

lemma fraction_eq_none (hrest : rest.head? ≠ some '.') : fraction rest = none := by
  rw [fraction]
  rintro after rfl
  exact hrest rfl

lemma exponent_eq_none (hlower : rest.head? ≠ some 'e') (hupper : rest.head? ≠ some 'E') :
    exponent rest = none := by
  cases rest with
  | nil => rfl
  | cons c rest =>
    have hc : ¬(decide (c = 'e') || decide (c = 'E')) = true := by
      rw [Bool.or_eq_true, decide_eq_true_iff, decide_eq_true_iff]
      rintro (rfl | rfl)
      · exact hlower rfl
      · exact hupper rfl
    simp only [exponent, hc]
    rfl

/-- The text of an exponent is a sign and digits. -/
lemma exists_exponentText (L : DoubleLayout) (e : Int) :
    ∃ cs, L.exponentText e = (if e < 0 then '-' else '+') :: cs ∧
      (∀ c ∈ cs, c.isDigit = true) ∧ cs ≠ [] ∧ digitsValue (valuesOf cs) = e.natAbs := by
  refine ⟨_, rfl, ?_, List.append_ne_nil_of_right_ne_nil _ Nat.toDigits_ne_nil, ?_⟩
  · intro c hc
    rcases List.mem_append.1 hc with hc | hc
    · rw [List.eq_of_mem_replicate hc]
      rfl
    · exact Nat.isDigit_of_mem_toDigits (by norm_num) (by norm_num) hc
  · rw [valuesOf_append, digitsValue_append, valuesOf_replicate_zero, digitsValue_zeros,
      digitsValue_toDigits, Nat.zero_mul, Nat.zero_add]

lemma exponent_append (L : DoubleLayout) (e : Int) (hrest : EndsDigits rest) :
    exponent ('e' :: (L.exponentText e ++ rest)) = some (e, rest) := by
  obtain ⟨cs, htext, hdigits, hne, hvalue⟩ := exists_exponentText L e
  obtain ⟨d, ds, hread, hvalues⟩ := digits_append_of_ne_nil hdigits hne hrest
  rw [hvalues] at hvalue
  by_cases hnegative : e < 0
  · have hsigned : Double.signed true e.natAbs = e := by
      rw [Double.signed, if_pos rfl]
      omega
    simp [exponent, htext, hnegative, hread, hvalue, hsigned]
  · have hsigned : Double.signed false e.natAbs = e := by
      rw [Double.signed, if_neg Bool.false_ne_true]
      omega
    simp [exponent, htext, hnegative, hread, hvalue, hsigned]

section Unsigned

variable {cs₁ cs₂ after : List Char} {ds fs : List Nat} {e : Int}

lemma unsigned_integer (hwhole : whole cs = some (ds, cs₁))
    (hlength : ds.length ≤ Literal.maxIntegerDigits) (hfraction : fraction cs₁ = none)
    (hexponent : exponent cs₁ = none) :
    unsigned D negative cs = some (.int (Double.signed negative (digitsValue ds)), cs₁) := by
  have hshort : ¬Literal.maxIntegerDigits < ds.length := by omega
  simp [unsigned, hwhole, hfraction, hexponent, hshort]

lemma unsigned_fraction (hwhole : whole cs = some (ds, cs₁))
    (hlength : ds.length ≤ Literal.maxIntegerDigits) (hfraction : fraction cs₁ = some (fs, cs₂))
    (hexponent : exponent cs₂ = none) :
    unsigned D negative cs
      = some (.float (Double.withSign negative
          (Double.ofDecimal (digitsValue (ds ++ fs)) (0 - fs.length))), cs₂) := by
  have hshort : ¬Literal.maxIntegerDigits < ds.length := by omega
  simp [unsigned, hwhole, hfraction, hexponent, hshort]

lemma unsigned_exponent (hwhole : whole cs = some (ds, cs₁))
    (hlength : ds.length ≤ Literal.maxIntegerDigits)
    (hfraction : (fraction cs₁).getD ([], cs₁) = (fs, cs₂))
    (hexponent : exponent cs₂ = some (e, after)) :
    unsigned D negative cs
      = some (.float (Double.withSign negative
          (Double.ofDecimal (digitsValue (ds ++ fs)) (e - fs.length))), after) := by
  have hshort : ¬Literal.maxIntegerDigits < ds.length := by omega
  simp [unsigned, hwhole, hfraction, hexponent, hshort]

end Unsigned

end Json

/-! ### Doubles -/

namespace DoubleLayout

open Text Json

variable {L : DoubleLayout} {cs : List Char} {d : Decimal}

/-- Digits of a number that is not zero begin with another digit than zero. -/
lemma head?_toDigits_ne {n : Nat} (hn : 0 < n) : (Nat.toDigits 10 n).head? ≠ some '0' := by
  induction n using Nat.strongRecOn with
  | ind n ih =>
    rw [Nat.toDigits_eq_if (by norm_num)]
    split_ifs with hsmall
    · interval_cases n <;> decide
    · rw [List.head?_append_of_ne_nil _ Nat.toDigits_ne_nil]
      exact ih (n / 10) (by omega) (by omega)

lemma dropZeros_append_zeros (cs : List Char) :
    ∃ k, cs = dropZeros cs ++ List.replicate k '0' := by
  refine ⟨(cs.reverse.takeWhile (· = '0')).length, ?_⟩
  have hzeros : (cs.reverse.takeWhile (· = '0')).reverse
      = List.replicate (cs.reverse.takeWhile (· = '0')).length '0' := by
    apply List.eq_replicate_iff.2
    refine ⟨List.length_reverse, fun c hc => ?_⟩
    simpa using List.mem_takeWhile_imp (List.mem_reverse.1 hc)
  rw [← hzeros, dropZeros, ← List.reverse_append, List.takeWhile_append_dropWhile,
    List.reverse_reverse]

/-- Digits that say how a double begins. -/
structure Significant (cs : List Char) : Prop where
  digits : ∀ c ∈ cs, c.isDigit = true
  nonempty : cs ≠ []
  first : cs.head? ≠ some '0'

/-- How an unsigned double is spelled: digits, a point with others, and an exponent. -/
structure Spelling where
  whole : List Char
  fraction : List Char
  exponent? : Option Int
  isWhole : IsWhole whole
  length_whole : whole.length ≤ Literal.maxIntegerDigits
  digits : ∀ c ∈ fraction, c.isDigit = true
  /-- Without a point and an exponent it would be an integer. -/
  isDouble : fraction = [] → exponent?.isSome = true

namespace Spelling

variable {t : Spelling} {rest : List Char}

/-- The point and the digits behind it, if there are any. -/
def fractionChars (t : Spelling) : List Char :=
  if t.fraction = [] then [] else '.' :: t.fraction

/-- The exponent with its letter, if there is one. -/
def exponentChars (L : DoubleLayout) (t : Spelling) : List Char :=
  t.exponent?.elim [] fun e => 'e' :: L.exponentText e

/-- The text of a spelling. -/
def chars (L : DoubleLayout) (t : Spelling) : List Char :=
  t.whole ++ (t.fractionChars ++ t.exponentChars L)

/-- The literal that a spelling is. -/
def literal (t : Spelling) : Literal :=
  ⟨valuesOf t.whole, valuesOf t.fraction, t.exponent?.getD 0⟩

/-- The number that is spelled. -/
def toRat (t : Spelling) : ℚ :=
  digitsValue (valuesOf (t.whole ++ t.fraction)) * 10 ^ (t.exponent?.getD 0 - t.fraction.length)

/-- What is spelled is read as a double. -/
lemma unsigned_append (L : DoubleLayout) (t : Spelling) (D : Dialect) (negative : Bool)
    (hrest : EndsNumber rest) :
    unsigned D negative (t.chars L ++ rest)
      = some (.float (Double.withSign negative t.literal.toDouble), rest) := by
  obtain ⟨w, f, e?, hw, hshort, hf, hdouble⟩ := t
  have hlength : (valuesOf w).length ≤ Literal.maxIntegerDigits := by rwa [length_valuesOf]
  cases e? with
  | none =>
    have hne : f ≠ [] := fun hnil => absurd (hdouble hnil) (by decide)
    have htext : w ++ '.' :: (f ++ rest)
        = chars L ⟨w, f, none, hw, hshort, hf, hdouble⟩ ++ rest := by
      simp [chars, fractionChars, exponentChars, hne]
    rw [← htext, unsigned_fraction (whole_append hw (endsDigits_cons rfl _)) hlength
      (fraction_append hf hne hrest.digit) (exponent_eq_none hrest.lower hrest.upper)]
    rfl
  | some e =>
    have hexponent := exponent_append L e hrest.digit
    by_cases hnil : f = []
    · subst hnil
      have htext : w ++ 'e' :: (L.exponentText e ++ rest)
          = chars L ⟨w, [], some e, hw, hshort, hf, hdouble⟩ ++ rest := by
        simp [chars, fractionChars, exponentChars]
      have hfraction : (Json.fraction ('e' :: (L.exponentText e ++ rest))).getD
          ([], 'e' :: (L.exponentText e ++ rest)) = ([], 'e' :: (L.exponentText e ++ rest)) := rfl
      rw [← htext, unsigned_exponent (whole_append hw (endsDigits_cons rfl _)) hlength hfraction
        hexponent]
      rfl
    · have htext : w ++ '.' :: (f ++ 'e' :: (L.exponentText e ++ rest))
          = chars L ⟨w, f, some e, hw, hshort, hf, hdouble⟩ ++ rest := by
        simp [chars, fractionChars, exponentChars, hnil]
      have hfraction := fraction_append hf hnil
        (endsDigits_cons (c := 'e') rfl (L.exponentText e ++ rest))
      rw [← htext, unsigned_exponent (whole_append hw (endsDigits_cons rfl _)) hlength
        (by rw [hfraction]; rfl) hexponent]
      rfl

end Spelling

lemma isDigit_replicate_zero {k : Nat} {c : Char} (hc : c ∈ List.replicate k '0') :
    c.isDigit = true := by
  rw [List.eq_of_mem_replicate hc]
  rfl

lemma isWhole_zero : IsWhole ['0'] :=
  ⟨fun _ hc => isDigit_replicate_zero (k := 1) hc, List.cons_ne_nil _ _, fun _ => rfl⟩

lemma digitsValue_append_zeros (cs : List Char) (k : Nat) :
    digitsValue (valuesOf (cs ++ List.replicate k '0')) = digitsValue (valuesOf cs) * 10 ^ k := by
  rw [valuesOf_append, digitsValue_append, valuesOf_replicate_zero, digitsValue_zeros,
    List.length_replicate, Nat.add_zero]

lemma digitsValue_zeros_append (cs : List Char) (k : Nat) :
    digitsValue (valuesOf (List.replicate k '0' ++ cs)) = digitsValue (valuesOf cs) := by
  rw [valuesOf_append, digitsValue_append, valuesOf_replicate_zero, digitsValue_zeros,
    Nat.zero_mul, Nat.zero_add]

/-- Digits on both sides of a point spell a double. -/
lemma exists_pointed (L : DoubleLayout) {w f : List Char} (hw : IsWhole w)
    (hlength : w.length ≤ Literal.maxIntegerDigits) (hf : ∀ c ∈ f, c.isDigit = true)
    (hne : f ≠ []) :
    ∃ t : Spelling, t.chars L = w ++ '.' :: f ∧
      t.toRat = digitsValue (valuesOf (w ++ f)) * 10 ^ (-f.length : Int) := by
  refine ⟨⟨w, f, none, hw, hlength, hf, fun hnil => absurd hnil hne⟩, ?_, ?_⟩
  · simp [Spelling.chars, Spelling.fractionChars, Spelling.exponentChars, hne]
  · rw [Spelling.toRat, Option.getD_none, zero_sub]

/-- Digits that all stand behind the point. -/
lemma exists_pointed_behind (L : DoubleLayout) (hcs : Significant cs) (k : Nat) :
    ∃ t : Spelling, t.chars L = '0' :: '.' :: (List.replicate k '0' ++ cs) ∧
      t.toRat = digitsValue (valuesOf cs) * 10 ^ (-k - cs.length : Int) := by
  have hdigits : ∀ c ∈ List.replicate k '0' ++ cs, c.isDigit = true := fun c hc =>
    (List.mem_append.1 hc).elim isDigit_replicate_zero (hcs.digits c)
  obtain ⟨t, htext, hvalue⟩ := exists_pointed L isWhole_zero
    (by norm_num [Literal.maxIntegerDigits]) hdigits
    (List.append_ne_nil_of_right_ne_nil _ hcs.nonempty)
  refine ⟨t, htext, hvalue.trans ?_⟩
  have hzeros := digitsValue_zeros_append cs (k + 1)
  rw [List.replicate_succ, List.cons_append] at hzeros
  rw [List.singleton_append, hzeros, List.length_append, List.length_replicate]
  congr 2
  push_cast
  ring

/-- Digits that all stand before the point, with a zero behind it. -/
lemma exists_pointed_before (L : DoubleLayout) (hcs : Significant cs) {k : Nat}
    (hlength : cs.length + k ≤ Literal.maxIntegerDigits) :
    ∃ t : Spelling, t.chars L = cs ++ List.replicate k '0' ++ ['.', '0'] ∧
      t.toRat = digitsValue (valuesOf cs) * 10 ^ (k : Int) := by
  have hw : IsWhole (cs ++ List.replicate k '0') := by
    refine ⟨fun c hc => (List.mem_append.1 hc).elim (hcs.digits c) isDigit_replicate_zero,
      List.append_ne_nil_of_left_ne_nil hcs.nonempty _, ?_⟩
    rw [List.head?_append_of_ne_nil _ hcs.nonempty]
    exact fun hzero => absurd hzero hcs.first
  obtain ⟨t, htext, hvalue⟩ := exists_pointed L hw
    (by rwa [List.length_append, List.length_replicate]) isWhole_zero.digits isWhole_zero.nonempty
  refine ⟨t, htext, hvalue.trans ?_⟩
  have hzeros := digitsValue_append_zeros cs (k + 1)
  rw [List.replicate_succ', ← List.append_assoc] at hzeros
  rw [hzeros, zpow_natCast, pow_succ]
  push_cast
  change _ * 10 ^ (-1 : Int) = _
  norm_num
  ring

/-- Digits among which the point stands. -/
lemma exists_pointed_among (L : DoubleLayout) (hcs : Significant cs) {k : Nat} (hk : 0 < k)
    (hlt : k < cs.length) (hlength : k ≤ Literal.maxIntegerDigits) :
    ∃ t : Spelling, t.chars L = cs.take k ++ '.' :: cs.drop k ∧
      t.toRat = digitsValue (valuesOf cs) * 10 ^ (k - cs.length : Int) := by
  have htake : cs.take k ≠ [] := by
    rw [Ne, List.take_eq_nil_iff, not_or]
    exact ⟨hk.ne', hcs.nonempty⟩
  have hw : IsWhole (cs.take k) := by
    refine ⟨fun c hc => hcs.digits c (List.mem_of_mem_take hc), htake, fun hzero => ?_⟩
    apply absurd _ hcs.first
    rw [← List.take_append_drop k cs, List.head?_append_of_ne_nil _ htake]
    exact hzero
  obtain ⟨t, htext, hvalue⟩ := exists_pointed L hw (f := cs.drop k)
    (by rw [List.length_take]; omega) (fun c hc => hcs.digits c (List.mem_of_mem_drop hc))
    (by rw [Ne, List.drop_eq_nil_iff]; omega)
  refine ⟨t, htext, hvalue.trans ?_⟩
  rw [List.take_append_drop, List.length_drop]
  congr 2
  omega

/-- Digits around a point spell their number. -/
lemma exists_positional (L : DoubleLayout) (hcs : Significant cs) {point : Int}
    (hpoint : point ≤ Literal.maxIntegerDigits) :
    ∃ t : Spelling, t.chars L = positional cs point ∧
      t.toRat = digitsValue (valuesOf cs) * 10 ^ (point - cs.length) := by
  have hlength := List.length_pos_of_ne_nil hcs.nonempty
  rw [positional]
  split_ifs with hbefore hbehind
  · obtain ⟨t, htext, hvalue⟩ := exists_pointed_behind L hcs (-point).toNat
    refine ⟨t, htext, hvalue.trans ?_⟩
    rw [Int.toNat_of_nonneg (by omega), neg_neg]
  · obtain ⟨t, htext, hvalue⟩ := exists_pointed_before L hcs (k := point.toNat - cs.length)
      (by omega)
    refine ⟨t, htext, hvalue.trans ?_⟩
    congr 2
    omega
  · obtain ⟨t, htext, hvalue⟩ := exists_pointed_among L hcs (k := point.toNat) (by omega)
      (by omega) (by omega)
    refine ⟨t, htext, hvalue.trans ?_⟩
    rw [Int.toNat_of_nonneg (by omega)]

/-- Digits with an exponent spell their number. -/
lemma exists_scientific (L : DoubleLayout) (hcs : Significant cs) (e : Int) :
    ∃ t : Spelling, t.chars L = L.scientific cs e ∧
      t.toRat = digitsValue (valuesOf cs) * 10 ^ (e + 1 - cs.length) := by
  cases cs with
  | nil => exact absurd rfl hcs.nonempty
  | cons c cs =>
    have hfirst : IsWhole [c] := by
      refine ⟨fun c' hc' => ?_, List.cons_ne_nil _ _, fun hzero => absurd hzero hcs.first⟩
      obtain rfl := List.mem_singleton.1 hc'
      exact hcs.digits c' List.mem_cons_self
    refine ⟨⟨[c], cs, some e, hfirst, by norm_num [Literal.maxIntegerDigits],
      fun x hx => hcs.digits x (List.mem_cons_of_mem c hx), fun _ => rfl⟩, ?_, ?_⟩
    · cases cs with
      | nil => rfl
      | cons c' cs =>
        simp [Spelling.chars, Spelling.fractionChars, Spelling.exponentChars, scientific]
    · simp [Spelling.toRat]

/-- The digits of a number that is not zero, without the zeros at their end. -/
lemma significant_dropZeros {n : Nat} (hn : 0 < n) :
    Significant (dropZeros (Nat.toDigits 10 n)) := by
  obtain ⟨k, hk⟩ := dropZeros_append_zeros (Nat.toDigits 10 n)
  have hne : dropZeros (Nat.toDigits 10 n) ≠ [] := by
    intro hnil
    have hvalue := digitsValue_toDigits n
    rw [hk, hnil, List.nil_append, valuesOf_replicate_zero, digitsValue_zeros] at hvalue
    omega
  refine ⟨fun c hc => ?_, hne, ?_⟩
  · apply Nat.isDigit_of_mem_toDigits (b := 10) (n := n) (by norm_num) (by norm_num)
    rw [hk]
    exact List.mem_append_left _ hc
  · have hhead := head?_toDigits_ne hn
    rwa [hk, List.head?_append_of_ne_nil _ hne] at hhead

/-- The text of a decimal spells its number. -/
lemma exists_decimalText (hlayout : L.highest ≤ Literal.maxIntegerDigits - 1) (d : Decimal) :
    ∃ t : Spelling, t.chars L = L.decimalText d ∧ t.toRat = d.toRat := by
  rw [decimalText, Decimal.toRat]
  by_cases hzero : d.digits = 0
  · rw [if_pos hzero, hzero]
    obtain ⟨t, htext, hvalue⟩ := exists_pointed L isWhole_zero
      (by norm_num [Literal.maxIntegerDigits]) isWhole_zero.digits isWhole_zero.nonempty
    exact ⟨t, htext, hvalue.trans (by simp [valuesOf, digitsValue])⟩
  · rw [if_neg hzero]
    have hsignificant := significant_dropZeros (Nat.pos_of_ne_zero hzero)
    obtain ⟨k, hk⟩ := dropZeros_append_zeros (Nat.toDigits 10 d.digits)
    generalize hall : Nat.toDigits 10 d.digits = all at hk hsignificant
    have hvalue : d.digits = digitsValue (valuesOf (dropZeros all)) * 10 ^ k := by
      rw [← digitsValue_append_zeros, ← hk, ← hall, digitsValue_toDigits]
    have hlength : all.length = (dropZeros all).length + k := by
      conv_lhs => rw [hk, List.length_append, List.length_replicate]
    have hnumber : (digitsValue (valuesOf (dropZeros all)) : ℚ)
        * 10 ^ ((all.length : Int) + d.exponent - (dropZeros all).length)
        = d.digits * 10 ^ d.exponent := by
      rw [hvalue, hlength]
      push_cast
      rw [show ((dropZeros all).length : Int) + k + d.exponent - (dropZeros all).length
        = k + d.exponent by ring, zpow_add₀ (by norm_num), zpow_natCast]
      ring
    dsimp only
    split_ifs with hposition
    · rw [← hnumber]
      exact exists_positional L hsignificant (by omega)
    · obtain ⟨t, htext, hspelled⟩ := exists_scientific L hsignificant (all.length + d.exponent - 1)
      refine ⟨t, htext, hspelled.trans ?_⟩
      rw [← hnumber, sub_add_cancel]

/-- The text of a finite double: a sign if it is negative, and the text of its decimal. -/
lemma toList_text {x : Float} {negative : Bool} {m : Nat} {q : Int}
    (h : Double.parts x = .finite negative m q) :
    (L.text x).toList = if negative then '-' :: L.decimalText (Decimal.shortest m q)
      else L.decimalText (Decimal.shortest m q) := by
  rw [text, h]
  exact String.toList_ofList

/-- What is nearest to the shortest decimal of a finite double is the double. -/
lemma withSign_toDouble {x : Float} {negative : Bool} {m : Nat} {q : Int}
    (hparts : Double.parts x = .finite negative m q) {t : Spelling}
    (ht : t.toRat = (Decimal.shortest m q).toRat) :
    Double.withSign negative t.literal.toDouble = x := by
  obtain ⟨n, e, hdouble, hvalue⟩ : ∃ n e, t.literal.toDouble = Double.ofDecimal n e ∧
      (n : ℚ) * 10 ^ e = (Decimal.shortest m q).toRat := by
    refine ⟨_, _, rfl, ?_⟩
    rw [← ht, Spelling.toRat, valuesOf_append]
    simp only [Spelling.literal, length_valuesOf]
  rw [hdouble]
  by_cases hm : m = 0
  · subst hm
    have hten : (10 : ℚ) ^ e ≠ 0 := by positivity
    obtain rfl : n = 0 := by
      simpa [Decimal.shortest, Decimal.toRat, hten] using hvalue
    exact Double.withSign_zero hparts
  · have hrounds := Decimal.roundsTo_shortest (Double.isCanonical_of_parts hparts hm)
    rw [← hvalue] at hrounds
    have hn : 0 < n := by
      apply Nat.pos_of_ne_zero
      rintro rfl
      have := (hrounds.between (Double.isCanonical_of_parts hparts hm)).1
      rw [Nat.cast_zero, zero_mul] at this
      exact absurd this (not_lt.2 (by positivity))
    exact Double.withSign_ofDecimal hparts hm hn hrounds

/-- The text of a finite double spells it behind its sign. -/
lemma exists_text (hlayout : L.highest ≤ Literal.maxIntegerDigits - 1) {x : Float}
    (hx : Double.isFinite x = true) :
    ∃ (negative : Bool) (t : Spelling),
      (L.text x).toList = (if negative then '-' :: t.chars L else t.chars L) ∧
        Double.withSign negative t.literal.toDouble = x := by
  rw [Double.isFinite] at hx
  split at hx
  · next negative m q hparts =>
    obtain ⟨t, htext, hvalue⟩ := exists_decimalText hlayout (Decimal.shortest m q)
    refine ⟨negative, t, ?_, withSign_toDouble hparts hvalue⟩
    rw [toList_text hparts, htext]
  · cases hx

/-- Saved files write no whole part that is too long to be read. -/
lemma highest_saved : saved.highest ≤ Literal.maxIntegerDigits - 1 := by decide

end DoubleLayout

/-! ### Numbers with their signs -/

namespace Json

open Text

variable {D : Dialect} {cs rest : List Char} {found : Value × List Char}

lemma exists_digit_of_unsigned {negative : Bool} (h : unsigned D negative cs = some found) :
    ∃ c tail, cs = c :: tail ∧ c.isDigit = true := by
  have hwhole : whole cs ≠ none := by
    intro hnone
    simp [unsigned, hnone] at h
  cases cs with
  | nil => exact absurd rfl hwhole
  | cons c tail =>
    refine ⟨c, tail, rfl, ?_⟩
    by_contra hc
    apply hwhole
    rw [whole]
    · simp [digits, hc]
    · intro after hafter
      obtain ⟨rfl, -⟩ := List.cons.inj hafter
      exact hc rfl

/-- A word begins with a letter or with a minus before one. -/
lemma word?_eq_none (D : Dialect) {c : Char} (hc : c.isDigit = true) (tail : List Char) :
    word? D (c :: tail) = none ∧ word? D ('-' :: c :: tail) = none := by
  constructor <;> rw [word?]
  all_goals
    intro after hafter
    cases hafter
  all_goals exact absurd hc (by decide)

/-- A number is found behind its sign. -/
lemma scalar_of_unsigned {negative : Bool} (h : unsigned D negative cs = some found) :
    scalar D (if negative then '-' :: cs else cs) = .ok found := by
  obtain ⟨c, tail, rfl, hc⟩ := exists_digit_of_unsigned h
  obtain ⟨hword, hsigned⟩ := word?_eq_none D hc tail
  cases negative with
  | true => simp [scalar, hsigned, number?, h]
  | false =>
    have hnumber : number? D (c :: tail) = unsigned D false (c :: tail) := by
      rw [number?]
      intro after hafter
      cases hafter
      exact absurd hc (by decide)
    simp [scalar, hword, hnumber, h]

lemma isWhole_toDigits (n : Nat) : IsWhole (Nat.toDigits 10 n) := by
  refine ⟨fun c hc => Nat.isDigit_of_mem_toDigits (by norm_num) (by norm_num) hc,
    Nat.toDigits_ne_nil, fun hfirst => ?_⟩
  have hzero : n = 0 := by
    by_contra hpos
    exact DoubleLayout.head?_toDigits_ne (Nat.pos_of_ne_zero hpos) hfirst
  rw [hzero]
  rfl

/-- The text of an integer: a sign if it is negative, and its digits. -/
lemma toList_toString_int (n : Int) :
    (toString n).toList = if decide (n < 0) then '-' :: Nat.toDigits 10 n.natAbs
      else Nat.toDigits 10 n.natAbs := by
  rw [Int.toString_eq_repr, Int.repr_eq_if]
  by_cases hnegative : n < 0
  · rw [if_neg (by omega), show (-n).toNat = n.natAbs by omega]
    simp [hnegative]
  · rw [if_pos (by omega), show n.toNat = n.natAbs by omega]
    simp [hnegative]

lemma signed_natAbs (n : Int) : Double.signed (decide (n < 0)) n.natAbs = n := by
  rw [Double.signed]
  split_ifs with hnegative
  · have := of_decide_eq_true hnegative
    omega
  · have := of_decide_eq_false (Bool.eq_false_of_not_eq_true hnegative)
    omega

/-- An integer is read as it was written unless it has too many digits. -/
lemma scalar_int {n : Int} (hn : Double.digitCount n.natAbs ≤ Literal.maxIntegerDigits)
    (hrest : EndsNumber rest) : scalar D ((toString n).toList ++ rest) = .ok (.int n, rest) := by
  have hread : scalar D (if decide (n < 0) then '-' :: (Nat.toDigits 10 n.natAbs ++ rest)
      else Nat.toDigits 10 n.natAbs ++ rest) = .ok (.int n, rest) := by
    rw [scalar_of_unsigned (unsigned_integer (whole_append (isWhole_toDigits _) hrest.digit)
      (by rwa [length_valuesOf]) (fraction_eq_none hrest.point)
      (exponent_eq_none hrest.lower hrest.upper)), digitsValue_toDigits, signed_natAbs]
  rw [toList_toString_int, ← hread]
  split_ifs <;> rfl

/-- A finite double is read as it was written. -/
lemma scalar_float {L : DoubleLayout} (hlayout : L.highest ≤ Literal.maxIntegerDigits - 1)
    {x : Float} (hx : Double.isFinite x = true) (hrest : EndsNumber rest) :
    scalar D ((L.text x).toList ++ rest) = .ok (.float x, rest) := by
  obtain ⟨negative, t, htext, hvalue⟩ := DoubleLayout.exists_text hlayout hx
  have hread := scalar_of_unsigned (t.unsigned_append L D negative hrest)
  rw [hvalue] at hread
  rw [htext, ← hread]
  cases negative <;> rfl

end Json

end Workflow
