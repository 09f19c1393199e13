import Workflow.Number.Literal
import Workflow.Proofs.Number.Decimal

/-!
# The range of the doubles

A positive number is rounded to a finite double if it lies below the limit of the doubles, and to
the infinity otherwise. The limit is half a unit above the greatest finite double, which is where a
tie goes to the even mantissa: the power of two that is no finite double any more.
-/

namespace Workflow

namespace Double

open Float.Model Float.Model.UnpackedFloat

/-- The least positive number that is rounded to the infinity. -/
def limit : ℚ :=
  2 ^ 1024 - 2 ^ 970

lemma limit_eq : limit = (2 ^ 53 - 1 / 2) * 2 ^ (971 : Int) := by
  have hlast : (2 : ℚ) ^ (971 : Int) = 2 * 2 ^ 970 := by
    rw [← pow_succ']
    exact zpow_natCast 2 971
  rw [limit, hlast, show (2 : ℚ) ^ 1024 = 2 ^ 54 * 2 ^ 970 by rw [← pow_add]]
  generalize (2 : ℚ) ^ 970 = unit
  ring

section Rounding

variable {v : ℚ} {m n : Nat} {q e : Int} {x : Float}

/-! ### Below the limit and beyond it -/

lemma IsRounded.comesTo {w : UnpackedFloat} (h : IsRounded v w) (hv : 0 < v) :
    ∃ r t, IsNearest r (v / 2 ^ t) ∧ -1074 ≤ t ∧ (t ≠ -1074 → (2 : ℚ) ^ (52 + t) ≤ v) ∧
      v < 2 ^ (53 + t) ∧ ComesTo .positive r t w := by
  cases h with
  | @intro mantissa exponent accuracy h hexponent =>
    generalize ht : max ((mantissa.log2 : Int) + exponent - 52) (-1074) = t at hexponent
    obtain ⟨hplace, hbelow⟩ := h.place ht hexponent
    obtain ⟨r, hr⟩ : ∃ r, IsNearest r (v / 2 ^ t) := exists_isNearest (by positivity)
    have hlimit := (hr.bounds hplace hbelow).1
    exact ⟨r, t, hr, by omega, hplace, hbelow,
      comesTo_roundWithAccuracy h ht hexponent hr hlimit .positive⟩

/-- Below the limit a number is rounded to what is in range. -/
lemma IsRounded.inRange {w : UnpackedFloat} (h : IsRounded v w) (hv : 0 < v) (hlt : v < limit) :
    InRange w := by
  obtain ⟨r, t, hr, -, hlower, -, hcomes⟩ := h.comesTo hv
  have hunit : (0 : ℚ) < 2 ^ (971 : Int) := by positivity
  rw [limit_eq] at hlt
  have hplace : t ≤ 971 := by
    by_contra hhigh
    have hle : (2 : ℚ) ^ (1024 : Int) ≤ v :=
      (zpow_le_zpow_right₀ (by norm_num) (by omega)).trans (hlower (by omega))
    rw [show (1024 : Int) = (53 : Nat) + 971 by norm_num, zpow_add₀ (by norm_num),
      zpow_natCast] at hle
    have := (hle.trans_lt hlt).le
    rw [mul_le_mul_iff_left₀ hunit] at this
    norm_num at this
  cases hcomes with
  | zero => exact .zero _
  | finite hpos hlt => exact .finite _ hpos hlt hplace
  | power hpower =>
    subst hpower
    refine .finite _ _ (by norm_num) ?_
    -- at the last place the power of two would be too far away
    have hne : t ≠ 971 := by
      rintro rfl
      have hupper := hr.lower
      rw [sub_le_iff_le_add] at hupper
      have := (div_lt_iff₀ hunit).2 hlt
      rw [Nat.cast_pow, Nat.cast_ofNat] at hupper
      linarith
    omega

/-- From the limit on, what a number is rounded to stands at too high a place. -/
lemma IsRounded.high {w : UnpackedFloat} (h : IsRounded v w) (hv : 0 < v) (hle : limit ≤ v) :
    ∃ m q, ∃ hm : 0 < m, w = .finite .positive m q hm ∧ 972 ≤ q := by
  obtain ⟨r, t, hr, -, hlower, hupper, hcomes⟩ := h.comesTo hv
  have hunit : (0 : ℚ) < 2 ^ (971 : Int) := by positivity
  rw [limit_eq] at hle
  have hplace : 971 ≤ t := by
    by_contra hlow
    have hlt : v < 2 ^ (1023 : Int) :=
      hupper.trans_le (zpow_le_zpow_right₀ (by norm_num) (by omega))
    rw [show (1023 : Int) = (52 : Nat) + 971 by norm_num, zpow_add₀ (by norm_num),
      zpow_natCast] at hlt
    have := (hle.trans_lt hlt).le
    rw [mul_le_mul_iff_left₀ hunit] at this
    norm_num at this
  have hlast : (2 : ℚ) ^ 52 ≤ v / 2 ^ t := by
    have := hlower (by omega)
    rwa [zpow_add₀ (by norm_num), ← le_div_iff₀ (by positivity)] at this
  cases hcomes with
  | zero hzero =>
    have := hr.upper
    rw [hzero] at this
    norm_num at this
    linarith
  | power hpower => exact ⟨_, _, _, rfl, by omega⟩
  | finite hpos hlt =>
    refine ⟨_, _, _, rfl, ?_⟩
    -- at the last place the even mantissa of a tie is the power of two
    have hne : t ≠ 971 := by
      rintro rfl
      have hfar := (le_div_iff₀ hunit).2 hle
      have hnear := hr.upper
      have hcast : (r : ℚ) ≤ 2 ^ 53 - 1 := by
        have : (r : ℚ) ≤ (2 ^ 53 - 1 : Nat) := by exact_mod_cast Nat.le_pred_of_lt hlt
        rwa [Nat.cast_sub (by norm_num)] at this
      have htie : (r : ℚ) = (2 ^ 53 - 1 : Nat) := by
        rw [Nat.cast_sub (by norm_num)]
        push_cast
        linarith
      have heven := hr.even (.inr (by linarith))
      rw [Nat.cast_inj.1 htie] at heven
      norm_num at heven
    omega

/-- A mantissa at too high a place is packed to the infinity. -/
lemma ofModel_pack_of_high (hm : 0 < m) (hq : 972 ≤ q) :
    .ofModel (Float.Model.pack (.finite .positive m q hm)) = infinity := by
  have hfield : 2048 ≤ (q + (Format.binary64.exponentBias : Nat) + (52 : Nat)).toNat + 1 := by
    change 2048 ≤ (q + (1023 : Nat) + (52 : Nat)).toNat + 1
    omega
  have hpack : UnpackedFloat.pack .binary64 (.finite .positive m q hm)
      = packedInfinity .binary64 .positive := by
    rw [UnpackedFloat.pack]
    exact if_pos hfield
  refine eq_of_toBits (UInt64.toNat.inj ?_)
  change (UnpackedFloat.pack .binary64 (.finite .positive m q hm)).toNat = _
  rw [hpack]
  rfl

lemma Rounds.isFinite (h : Rounds v x) (hv : 0 < v) (hlt : v < limit) : isFinite x = true := by
  cases h with
  | intro h => exact isFinite_pack (h.inRange hv hlt)

lemma Rounds.eq_infinity (h : Rounds v x) (hv : 0 < v) (hle : limit ≤ v) : x = infinity := by
  cases h with
  | intro h =>
    obtain ⟨m, q, hm, rfl, hq⟩ := h.high hv hle
    exact ofModel_pack_of_high hm hq

lemma InRange.neg {u : UnpackedFloat} (h : InRange u) : InRange (UnpackedFloat.neg u) := by
  cases h with
  | zero sign => exact .zero _
  | finite sign hpos hlt hexponent => exact .finite _ hpos hlt hexponent

lemma isFinite_withSign (h : isFinite x = true) (negative : Bool) :
    isFinite (withSign negative x) = true := by
  cases negative with
  | false => exact h
  | true => exact isFinite_pack (inRange_unpack h).neg

/-! ### Decimals -/

lemma limit_lt_ten_pow : limit < 10 ^ (400 : Int) := by
  have hlt : ((2 ^ 1024 : Nat) : ℚ) < (10 ^ 400 : Nat) := Nat.cast_lt.2 (by decide +kernel)
  rw [Nat.cast_pow, Nat.cast_pow] at hlt
  have hpos : (0 : ℚ) < 2 ^ 970 := by positivity
  exact (sub_lt_self _ hpos).trans hlt

lemma one_lt_limit : 1 < limit := by
  rw [limit_eq]
  have hunit : (1 : ℚ) ≤ 2 ^ (971 : Int) := one_le_zpow₀ (by norm_num) (by norm_num)
  generalize (2 : ℚ) ^ (971 : Int) = unit at hunit ⊢
  norm_num
  linarith

/-- **A decimal below the limit is read as a finite double.** -/
theorem isFinite_ofDecimal (h : (n : ℚ) * 10 ^ e < limit) : isFinite (ofDecimal n e) = true := by
  by_cases hzero : n = 0
  · rw [ofDecimal, if_pos hzero]
    rfl
  · have hn := Nat.pos_of_ne_zero hzero
    have hbefore : (digitCount n : Int) + e ≤ 400 := by
      by_contra hfar
      have hle : (10 : ℚ) ^ (400 : Int) ≤ n * 10 ^ e :=
        (zpow_le_zpow_right₀ (by norm_num) (by omega)).trans (ten_pow_le_decimal hn e)
      exact absurd (hle.trans_lt h) limit_lt_ten_pow.not_gt
    by_cases hbehind : -400 ≤ (digitCount n : Int) + e
    · exact (rounds_ofDecimal hn hbefore hbehind).isFinite (by positivity) h
    · rw [ofDecimal, if_neg hzero, if_neg (by omega), if_pos (by omega)]
      rfl

/-- **A decimal from the limit on is read as the infinity.** -/
theorem ofDecimal_eq_infinity (h : limit ≤ (n : ℚ) * 10 ^ e) : ofDecimal n e = infinity := by
  have hone := one_lt_limit.trans_le h
  have hn : 0 < n := by
    apply Nat.pos_of_ne_zero
    rintro rfl
    norm_num at hone
  have hplace : 0 < (digitCount n : Int) + e := by
    have hlt := hone.trans (decimal_lt_ten_pow n e)
    rw [← zpow_zero (10 : ℚ), zpow_lt_zpow_iff_right₀ (by norm_num)] at hlt
    exact hlt
  by_cases hbefore : (digitCount n : Int) + e ≤ 400
  · exact (rounds_ofDecimal hn hbefore (by omega)).eq_infinity (by positivity) h
  · rw [ofDecimal, if_neg hn.ne', if_pos (by omega)]
    rfl

end Rounding

end Double

/-! ### Literals -/

namespace Literal

variable {l : Literal}

/-- The number that a literal stands for. -/
def magnitude (l : Literal) : ℚ :=
  Text.digitsValue (l.whole ++ l.fraction) * 10 ^ (l.exponent - l.fraction.length)

lemma isFinite_toDouble (h : l.magnitude < Double.limit) : Double.isFinite l.toDouble = true :=
  Double.isFinite_ofDecimal h

lemma toDouble_eq_infinity (h : Double.limit ≤ l.magnitude) : l.toDouble = Double.infinity :=
  Double.ofDecimal_eq_infinity h

end Literal

end Workflow
