import Workflow.Proofs.Number.Range
import Workflow.Proofs.Number.Sum

/-!
# The closest double

A number below the limit of the doubles is rounded to a finite double that no other one is closer
to, and to the one with the even mantissa if two are equally close; from the limit on it is rounded
to an infinity. So a decimal is read as the double closest to it, and an integer as an integer.
-/

namespace Workflow

namespace Double

open Float.Model Float.Model.UnpackedFloat

/-- Whether a double is finite and its mantissa is even. -/
def IsEven (x : Float) : Prop :=
  ∃ negative m q, parts x = .finite negative m q ∧ m % 2 = 0

/--
The double to which a number is rounded: no finite double is closer, and of two that are equally
close the one with the even mantissa is meant. From the limit on it is the infinity of the number's
sign.
-/
structure IsClosest (v : ℚ) (x : Float) : Prop where
  isFinite : |v| < limit → isFinite x = true
  le : |v| < limit → ∀ y, Double.isFinite y = true → |toRat x - v| ≤ |toRat y - v|
  isEven : |v| < limit → ∀ y, Double.isFinite y = true → toRat y ≠ toRat x →
    |toRat y - v| = |toRat x - v| → IsEven x
  infinite : limit ≤ |v| → x = withSign (decide (v < 0)) infinity

section Closest

variable {v f : ℚ} {x y : Float} {r n : Nat} {t e : Int}

/-! ### Mantissas -/

/-- The mantissa of an unpacked double, if it is finite. -/
def mantissaOf : UnpackedFloat → Nat
  | .finite _ m _ _ => m
  | _ => 0

lemma isEven_of_unpack (hx : isFinite x = true) (heven : mantissaOf x.toModel.unpack % 2 = 0) :
    IsEven x := by
  obtain ⟨negative, m, q, hparts⟩ := exists_parts hx
  refine ⟨negative, m, q, hparts, ?_⟩
  by_cases hm : m = 0
  · rw [hm]
  · rwa [unpack_of_parts hparts (isCanonical_of_parts hparts hm)] at heven

lemma ComesTo.mantissaOf_even {sign : Sign} {w : UnpackedFloat} (h : ComesTo sign r t w)
    (heven : r % 2 = 0) : mantissaOf w % 2 = 0 := by
  cases h with
  | zero => rfl
  | finite => exact heven
  | power => norm_num [mantissaOf]

lemma InRange.exponentOf_le {w : UnpackedFloat} (h : InRange w) : exponentOf w ≤ 971 := by
  cases h with
  | zero sign => norm_num [exponentOf]
  | finite sign h hmantissa hexponent => exact hexponent

/-! ### Rounding a positive number -/

/-- What a positive number is rounded to, on the grid of the place at which the number begins. -/
structure Lands (v : ℚ) (x : Float) (r : Nat) (t : Int) : Prop where
  isFinite : isFinite x = true
  value : toRat x = r * 2 ^ t
  rounding : IsRounding v (toRat x) t
  nearest : IsNearest r (v / 2 ^ t)
  isEven : r % 2 = 0 → IsEven x

lemma Rounds.lands (h : Rounds v x) (hv : 0 < v) (hlt : v < limit) : ∃ r t, Lands v x r t := by
  have hfinite := h.isFinite hv hlt
  cases h with
  | @intro w h =>
    obtain ⟨r, t, hr, hleast, hplace, hbelow, hcomes⟩ := h.comesTo hv
    have hrounding := hr.isRounding hv.le hleast hplace hbelow .positive
    have hrounded := hcomes.rounded hleast (hr.bounds hplace hbelow).2 hrounding
    have hunpack := (hrounded.canonical (h.inRange hv hlt).exponentOf_le).unpack_pack
    have hvalue : toRat (.ofModel (Float.Model.pack w)) = r * 2 ^ t := by
      change valueOf (Float.Model.pack w).unpack = _
      rw [hunpack]
      cases hcomes with
      | zero hzero => simp [valueOf, hzero]
      | finite => simp [valueOf, Sign.apply]
      | power hpower =>
        rw [hpower, valueOf, zpow_add_one₀ (by norm_num)]
        simp only [Sign.apply]
        push_cast
        ring
    refine ⟨r, t, hfinite, hvalue, ?_, hr, fun heven => isEven_of_unpack hfinite ?_⟩
    · rw [hvalue]
      simpa [Sign.apply] using hrounding
    · change mantissaOf (Float.Model.pack w).unpack % 2 = 0
      rw [hunpack]
      exact hcomes.mantissaOf_even heven

/-- A double lies on the grid, or below the number at the first place of the number. -/
lemma IsRounding.onGrid_or_lt (h : IsRounding v f t) (hy : Double.isFinite y = true) :
    OnGrid t (toRat y) ∨ toRat y < 2 ^ (52 + t) ∧ 2 ^ (52 + t) ≤ |v| := by
  have hself := (canonical_unpack hy).isRounding
  by_cases hle : t ≤ exponentOf y.toModel.unpack
  · exact .inl (hself.grid.mono hle)
  · have hplace := h.place.resolve_right (by have := hself.least; omega)
    have hbelow := hself.below.trans_le (two_zpow_le.2 (by omega : _ ≤ 52 + t))
    exact .inr ⟨(le_abs_self _).trans_lt hbelow, hplace⟩

/-- A finite double is no closer than the one on the grid, and as close only on the grid. -/
lemma IsRounding.le_or_lt (h : IsRounding v f t) (hv : 0 < v) (hy : Double.isFinite y = true) :
    OnGrid t (toRat y) ∧ |f - v| ≤ |toRat y - v| ∨ |f - v| < |toRat y - v| := by
  rcases h.onGrid_or_lt hy with hgrid | ⟨hlt, hplace⟩
  · exact .inl ⟨hgrid, h.closest hgrid⟩
  · refine .inr ?_
    rw [abs_of_pos hv] at hplace
    have hpower := h.closest (onGrid_two_pow (s := 52 + t) (by omega))
    rw [abs_of_nonpos (sub_nonpos.2 hplace)] at hpower
    rw [abs_of_neg (sub_neg.2 (hlt.trans_le hplace)) (a := toRat y - v)]
    linarith

/-- Another point of the grid that is as close as the nearest one is its neighbour. -/
lemma IsNearest.even_of_tie {k : Int} (h : IsNearest r (v / 2 ^ t)) (hne : (k : ℚ) ≠ r)
    (htie : |k * 2 ^ t - v| = |(r : ℚ) * 2 ^ t - v|) : r % 2 = 0 := by
  have hunit : (0 : ℚ) < 2 ^ t := by positivity
  have hscale : ∀ a : ℚ, |a * 2 ^ t - v| = |a - v / 2 ^ t| * 2 ^ t := by
    intro a
    rw [← abs_of_pos hunit, ← abs_mul, abs_of_pos hunit, sub_mul, div_mul_cancel₀ _ hunit.ne']
  rw [hscale, hscale, mul_left_inj' hunit.ne', abs_eq_abs] at htie
  have hmiddle : (k : ℚ) + r = 2 * (v / 2 ^ t) := by
    rcases htie with hsame | hopposite
    · exact absurd (by linarith) hne
    · linarith
  have hlower := h.lower
  have hupper := h.upper
  have hk : k = r + 1 ∨ k = r - 1 := by
    have hne' : k ≠ r := fun heq => hne (by rw [heq, Int.cast_natCast])
    have hle : (k : ℚ) ≤ r + 1 := by linarith
    have hge : (r : ℚ) - 1 ≤ k := by linarith
    have hle : k ≤ r + 1 := by exact_mod_cast hle
    have hge : (r : Int) - 1 ≤ k := by exact_mod_cast hge
    omega
  rcases hk with rfl | rfl
  · refine h.even (.inr ?_)
    push_cast at hmiddle
    linarith
  · refine h.even (.inl ?_)
    push_cast at hmiddle
    linarith

lemma Lands.isClosest (h : Lands v x r t) (hv : 0 < v) (hlt : v < limit) : IsClosest v x where
  isFinite _ := h.isFinite
  le _ y hy := (h.rounding.le_or_lt hv hy).elim (·.2) le_of_lt
  isEven _ y hy hne htie := by
    rcases h.rounding.le_or_lt hv hy with ⟨⟨k, hk⟩, -⟩ | hfar
    · refine h.isEven (h.nearest.even_of_tie (k := k) (fun heq => hne ?_) ?_)
      · rw [hk, h.value, heq]
      · rw [← hk, ← h.value, htie]
    · exact absurd htie hfar.ne'
  infinite hle := absurd hlt (by rwa [abs_of_pos hv, ← not_lt] at hle)

/-! ### Zero -/

lemma toRat_zero : toRat 0 = 0 := rfl

/-- The finite doubles other than zero do not come closer to zero than the least positive one. -/
lemma le_abs_toRat (hy : Double.isFinite y = true) (hne : toRat y ≠ 0) :
    (2 : ℚ) ^ (-1074 : Int) ≤ |toRat y| := by
  by_contra hlt
  have hself := (canonical_unpack hy).isRounding
  refine hne ((hself.grid.mono hself.least).eq_of_abs_lt ⟨0, by simp⟩ ?_)
  rwa [sub_zero, ← not_le]

/-- What is less than half of the least positive double is rounded to zero. -/
lemma isClosest_zero (hv : 0 ≤ v) (hlt : 2 * v < 2 ^ (-1074 : Int)) : IsClosest v 0 := by
  have hfar : ∀ y, Double.isFinite y = true → toRat y ≠ 0 → |toRat 0 - v| < |toRat y - v| := by
    intro y hy hne
    have hle := le_abs_toRat hy hne
    have htriangle := abs_sub_abs_le_abs_sub (toRat y) v
    rw [toRat_zero, zero_sub, abs_neg]
    rw [abs_of_nonneg hv] at htriangle ⊢
    linarith
  have hsmall : v < limit := by
    have hone : (2 : ℚ) ^ (-1074 : Int) ≤ 2 ^ (0 : Int) := two_zpow_le.2 (by norm_num)
    rw [zpow_zero] at hone
    linarith [one_lt_limit]
  constructor
  · exact fun _ => by decide +kernel
  · intro _ y hy
    by_cases hne : toRat y = 0
    · rw [hne, toRat_zero]
    · exact (hfar y hy hne).le
  · exact fun _ y hy hne htie => absurd htie (hfar y hy hne).ne'
  · intro hle
    rw [abs_of_nonneg hv] at hle
    exact absurd hsmall hle.not_gt

/-! ### Decimals -/

lemma ten_pow_lt_two_pow : 2 * (10 : ℚ) ^ (-400 : Int) < 2 ^ (-1074 : Int) := by
  have hlt : ((2 * 2 ^ 1074 : Nat) : ℚ) < (10 ^ 400 : Nat) := Nat.cast_lt.2 (by decide +kernel)
  rw [Nat.cast_mul, Nat.cast_pow, Nat.cast_pow] at hlt
  have hpos : (0 : ℚ) < 10 ^ 400 := by positivity
  have hpos' : (0 : ℚ) < 2 ^ 1074 := by positivity
  change 2 * ((10 : ℚ) ^ 400)⁻¹ < ((2 : ℚ) ^ 1074)⁻¹
  rw [← one_div, ← one_div, mul_one_div, div_lt_div_iff₀ hpos hpos', one_mul]
  exact hlt

/-- **A decimal is read as the double closest to it.** -/
theorem isClosest_ofDecimal (n : Nat) (e : Int) : IsClosest (n * 10 ^ e) (ofDecimal n e) := by
  have hnonneg : 0 ≤ (n : ℚ) * 10 ^ e := by positivity
  rcases le_or_gt limit ((n : ℚ) * 10 ^ e) with hle | hlt
  · have hfar : ∀ {p : Prop}, |(n : ℚ) * 10 ^ e| < limit → p := fun h =>
      absurd hle (not_le.2 (by rwa [abs_of_nonneg hnonneg] at h))
    refine ⟨hfar, hfar, hfar, fun _ => ?_⟩
    rw [ofDecimal_eq_infinity hle, decide_eq_false hnonneg.not_gt]
    rfl
  · by_cases hzero : n = 0
    · rw [hzero, Nat.cast_zero, zero_mul, ofDecimal, if_pos rfl]
      exact isClosest_zero le_rfl (by rw [mul_zero]; positivity)
    · have hn := Nat.pos_of_ne_zero hzero
      have hbefore : (digitCount n : Int) + e ≤ 400 := by
        by_contra hfar
        have hle : (10 : ℚ) ^ (400 : Int) ≤ n * 10 ^ e :=
          (zpow_le_zpow_right₀ (by norm_num) (by omega)).trans (ten_pow_le_decimal hn e)
        exact absurd (hle.trans_lt hlt) limit_lt_ten_pow.not_gt
      by_cases hbehind : -400 ≤ (digitCount n : Int) + e
      · have hpos : 0 < (n : ℚ) * 10 ^ e := by positivity
        obtain ⟨r, t, hlands⟩ := (rounds_ofDecimal hn hbefore hbehind).lands hpos hlt
        exact hlands.isClosest hpos hlt
      · rw [ofDecimal, if_neg hzero, if_neg (by omega), if_pos (by omega)]
        refine isClosest_zero hnonneg ?_
        have hsmall : (n : ℚ) * 10 ^ e < 10 ^ (-400 : Int) :=
          (decimal_lt_ten_pow n e).trans_le (zpow_le_zpow_right₀ (by norm_num) (by omega))
        linarith [ten_pow_lt_two_pow]

/-! ### Signs -/

lemma isFinite_neg (hx : isFinite x = true) : isFinite (-x) = true :=
  isFinite_withSign hx true

lemma toRat_neg (hx : isFinite x = true) : toRat (-x) = -toRat x := by
  change valueOf (Float.Model.pack (UnpackedFloat.neg x.toModel.unpack)).unpack = _
  rw [(canonical_unpack hx).neg.unpack_pack, valueOf_neg]
  rfl

lemma IsEven.neg (h : IsEven x) : IsEven (-x) := by
  obtain ⟨negative, m, q, hparts, heven⟩ := h
  have hx : isFinite x = true := by rw [isFinite, hparts]
  refine isEven_of_unpack (isFinite_neg hx) ?_
  change mantissaOf (Float.Model.pack (UnpackedFloat.neg x.toModel.unpack)).unpack % 2 = 0
  rw [(canonical_unpack hx).neg.unpack_pack]
  by_cases hm : m = 0
  · subst hm
    rw [unpack_of_parts_zero hparts]
    rfl
  · rw [unpack_of_parts hparts (isCanonical_of_parts hparts hm)]
    exact heven

lemma IsClosest.neg (h : IsClosest v x) (hv : 0 ≤ v) : IsClosest (-v) (-x) := by
  have hdistance : ∀ {a b : ℚ}, |-a - -b| = |a - b| := fun {a b} => by
    rw [neg_sub_neg, abs_sub_comm]
  have hother : ∀ {y}, Double.isFinite y = true → |toRat y - -v| = |toRat (-y) - v| := by
    intro y hy
    rw [toRat_neg hy, ← hdistance, neg_neg]
  constructor <;> rw [abs_neg]
  · exact fun hlt => isFinite_neg (h.isFinite hlt)
  · intro hlt y hy
    rw [toRat_neg (h.isFinite hlt), hdistance, hother hy]
    exact h.le hlt _ (isFinite_neg hy)
  · intro hlt y hy hne htie
    rw [toRat_neg (h.isFinite hlt)] at hne htie
    rw [hdistance, hother hy] at htie
    refine (h.isEven hlt _ (isFinite_neg hy) (fun heq => hne ?_) htie).neg
    rw [← heq, toRat_neg hy, neg_neg]
  · intro hle
    have hpos : 0 < v := by
      rw [abs_of_nonneg hv] at hle
      linarith [one_lt_limit]
    rw [h.infinite hle, decide_eq_false hpos.le.not_gt, decide_eq_true (neg_lt_zero.2 hpos)]
    rfl

lemma IsClosest.withSign (h : IsClosest v x) (hv : 0 ≤ v) (negative : Bool) :
    IsClosest (if negative then -v else v) (withSign negative x) := by
  cases negative with
  | false => exact h
  | true => exact h.neg hv

end Closest

end Double

end Workflow
