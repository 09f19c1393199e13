import Workflow.Proofs.Number.Closest
import Workflow.Transform.Number

/-!
# Whole doubles

A double without a fraction stands for an integer. Every integer of at most 53 binary digits is such
a double, and the double closest to any other integer below the limit is one, too: from there on the
doubles have no fractions.
-/

namespace Workflow

namespace Double

open Float.Model Float.Model.UnpackedFloat

section Whole

variable {v : ℚ} {x y : Float} {k n : Int}

lemma toInt?_eq_none (hx : isFinite x = false) : toInt? x = none := by
  rw [isFinite] at hx
  rw [toInt?]
  cases hparts : parts x with
  | finite => simp [hparts] at hx
  | nan | infinite => rfl

lemma cast_signed (negative : Bool) (m : Nat) :
    (signed negative m : ℚ) = signed negative 1 * m := by
  cases negative <;> simp [signed]

/-- A mantissa before the point has no fraction only if the power divides it. -/
lemma two_pow_dvd_of_eq {negative : Bool} {m j : Nat}
    (h : (signed negative m : ℚ) * 2 ^ (-j : Int) = n) : 2 ^ j ∣ m := by
  rw [zpow_neg, zpow_natCast, ← div_eq_mul_inv, div_eq_iff (by positivity)] at h
  have hsigned : signed negative m = n * 2 ^ j := by exact_mod_cast h
  have hm : (m : Int) = signed negative 1 * n * (2 ^ j : Nat) := by
    push_cast
    rw [mul_assoc, ← hsigned]
    cases negative <;> simp [signed]
  exact Int.natCast_dvd_natCast.1 (hm ▸ Dvd.intro_left _ rfl)

/-- A double stands for an integer if it is finite and has no fraction. -/
lemma toInt?_eq_some_iff : toInt? x = some n ↔ isFinite x = true ∧ toRat x = n := by
  by_cases hx : isFinite x = true
  · obtain ⟨negative, m, q, hparts⟩ := exists_parts hx
    rw [toRat_of_parts hparts, toInt?, hparts]
    simp only [hx, true_and]
    split_ifs with hq hdvd
    · obtain ⟨j, rfl⟩ := Int.eq_ofNat_of_zero_le hq
      rw [Option.some.injEq, ← Int.cast_inj (α := ℚ), cast_signed, cast_signed negative m,
        Int.toNat_natCast, zpow_natCast]
      push_cast [Nat.pow_eq]
      rw [mul_assoc]
    · obtain ⟨j, rfl⟩ : ∃ j : Nat, q = -j := ⟨(-q).toNat, by omega⟩
      rw [neg_neg, Int.toNat_natCast] at hdvd ⊢
      obtain ⟨w, rfl⟩ := Nat.dvd_of_mod_eq_zero hdvd
      rw [Nat.pow_eq, Nat.mul_div_cancel_left _ (Nat.pow_pos (by norm_num)), Option.some.injEq,
        ← Int.cast_inj (α := ℚ), cast_signed, cast_signed negative (_ * w), zpow_neg, zpow_natCast]
      push_cast
      field_simp
    · obtain ⟨j, rfl⟩ : ∃ j : Nat, q = -j := ⟨(-q).toNat, by omega⟩
      rw [neg_neg, Int.toNat_natCast] at hdvd
      constructor
      · intro hnone
        cases hnone
      · intro heq
        exact absurd (Nat.mod_eq_zero_of_dvd (two_pow_dvd_of_eq heq)) hdvd
  · simp [toInt?_eq_none (Bool.eq_false_of_not_eq_true hx), hx]

/-- Whether a number is a finite double. -/
def IsExact (v : ℚ) : Prop :=
  ∃ y, Double.isFinite y = true ∧ toRat y = v

lemma IsExact.abs_lt (hv : IsExact v) : |v| < limit := by
  obtain ⟨y, hy, rfl⟩ := hv
  obtain ⟨negative, m, q, hparts⟩ := exists_parts hy
  have habs : |(signed negative m : ℚ)| = m := by
    cases negative <;> simp [signed]
  rw [toRat_of_parts hparts, abs_mul, habs, abs_of_pos (by positivity)]
  by_cases hm : m = 0
  · rw [hm, Nat.cast_zero, zero_mul]
    exact one_pos.trans one_lt_limit
  · have hcanonical := isCanonical_of_parts hparts hm
    have hmantissa : (m : ℚ) + 1 ≤ 2 ^ 53 := by exact_mod_cast hcanonical.lt
    have hplace : (2 : ℚ) ^ q ≤ 2 ^ (971 : Int) := two_zpow_le.2 hcanonical.greatest
    calc (m : ℚ) * 2 ^ q ≤ m * 2 ^ (971 : Int) := by gcongr
      _ < limit := by
        rw [limit_eq]
        gcongr
        linarith

/-- A number that is a double is rounded to itself. -/
lemma IsClosest.toRat_eq (h : IsClosest v x) (hv : IsExact v) : toRat x = v := by
  have hlt := hv.abs_lt
  obtain ⟨y, hy, rfl⟩ := hv
  have hle := h.le hlt y hy
  rw [sub_self, abs_zero] at hle
  exact sub_eq_zero.1 (abs_eq_zero.1 (le_antisymm hle (abs_nonneg _)))

lemma isFinite_of_unpack {sign : Sign} {m : Nat} {q : Int} {hm : 0 < m}
    (h : x.toModel.unpack = .finite sign m q hm) : Double.isFinite x = true := by
  by_contra hx
  have hbeyond := beyond_unpack (Bool.not_eq_true _ ▸ hx)
  rw [h] at hbeyond
  cases hbeyond

lemma isExact_natCast {n : Nat} (h : n ≤ 2 ^ 53) : IsExact n := by
  rcases h.eq_or_lt with rfl | hlt
  · have hparts : parts (.ofBits 0x4340000000000000) = .finite false (2 ^ 52) 1 := by
      decide +kernel
    refine ⟨.ofBits 0x4340000000000000, by decide +kernel, ?_⟩
    rw [toRat_of_parts hparts]
    norm_num [signed]
  · by_cases hzero : n = 0
    · exact ⟨0, by decide +kernel, by rw [hzero, toRat_zero, Nat.cast_zero]⟩
    · have hunpack := unpack_toFloat (Nat.pos_of_ne_zero hzero) hlt
      refine ⟨n.toUInt64.toFloat, isFinite_of_unpack hunpack, ?_⟩
      rw [toRat, hunpack, valueOf, Sign.apply, zpow_neg, zpow_natCast]
      push_cast
      field_simp

/-- Every integer of at most 53 binary digits is a double. -/
lemma isExact_intCast (h : |k| ≤ 2 ^ 53) : IsExact k := by
  have hle : k.natAbs ≤ 2 ^ 53 := by
    rw [Int.abs_eq_natAbs] at h
    exact_mod_cast h
  obtain ⟨y, hy, hvalue⟩ := isExact_natCast hle
  rcases Int.natAbs_eq k with heq | heq
  · exact ⟨y, hy, by rw [hvalue, heq]; simp⟩
  · exact ⟨-y, isFinite_neg hy, by rw [toRat_neg hy, hvalue, heq]; simp⟩

/-- An integer that is more than 53 binary digits long is rounded to no less than the power. -/
lemma IsClosest.two_pow_le (h : IsClosest k x) (hlt : |(k : ℚ)| < limit) (hk : 2 ^ 53 < |k|) :
    2 ^ 53 ≤ |toRat x| := by
  have hk : (2 : ℚ) ^ 53 < |(k : ℚ)| := by exact_mod_cast hk
  obtain ⟨p, hp, hpower⟩ : ∃ p : Int, |p| ≤ 2 ^ 53 ∧ |(p : ℚ) - k| = |(k : ℚ)| - 2 ^ 53 := by
    rcases abs_cases (k : ℚ) with ⟨habs, -⟩ | ⟨habs, -⟩ <;> rw [habs] at hk ⊢
    · refine ⟨2 ^ 53, by norm_num, ?_⟩
      rw [abs_sub_comm, abs_of_pos] <;> push_cast <;> linarith
    · refine ⟨-2 ^ 53, by norm_num, ?_⟩
      rw [abs_of_pos] <;> push_cast <;> linarith
  obtain ⟨y, hy, heq⟩ := isExact_intCast hp
  have hle := h.le hlt y hy
  rw [heq, hpower, abs_sub_comm] at hle
  linarith [abs_sub_abs_le_abs_sub (k : ℚ) (toRat x)]

/-- An integer is rounded to an integer. -/
lemma IsClosest.exists_intCast (h : IsClosest k x) (hlt : |(k : ℚ)| < limit) :
    ∃ n : Int, toRat x = n := by
  rcases le_or_gt |k| (2 ^ 53) with hle | hgt
  · exact ⟨k, h.toRat_eq (isExact_intCast hle)⟩
  · have hself := (canonical_unpack (h.isFinite hlt)).isRounding
    have hplace : (2 : ℚ) ^ (53 : Int) < 2 ^ (53 + exponentOf x.toModel.unpack) :=
      (h.two_pow_le hlt hgt).trans_lt hself.below
    obtain ⟨n, hn⟩ := hself.grid.mono (s := 0) (by have := two_zpow_lt.1 hplace; omega)
    exact ⟨n, by rw [toRat, hn, zpow_zero, mul_one]⟩

end Whole

end Double

/-! ### Numbers -/

lemma Number.ofDouble_eq_int {x : Float} {n : Int} (hx : Double.isFinite x = true)
    (h : Double.toRat x = n) : ofDouble x = .int n := by
  rw [ofDouble, Double.toInt?_eq_some_iff.2 ⟨hx, h⟩]

lemma Number.ofDouble_eq_float {x : Float} (hx : Double.isFinite x = false) :
    ofDouble x = .float x := by
  rw [ofDouble, Double.toInt?_eq_none hx]

/-- The number that a double stands for: an integer if it is finite and has no fraction. -/
inductive Number.IsOf (x : Float) : Number → Prop where
  | int {n : Int} (hx : Double.isFinite x = true) (h : Double.toRat x = n) : IsOf x (.int n)
  | float (h : Double.isFinite x = true → ∀ n : Int, Double.toRat x ≠ n) : IsOf x (.float x)

lemma Number.isOf_ofDouble (x : Float) : IsOf x (ofDouble x) := by
  rw [ofDouble]
  cases hx : Double.toInt? x with
  | some n =>
    obtain ⟨hfinite, hvalue⟩ := Double.toInt?_eq_some_iff.1 hx
    exact .int hfinite hvalue
  | none =>
    refine .float fun hfinite n hvalue => ?_
    rw [Double.toInt?_eq_some_iff.2 ⟨hfinite, hvalue⟩] at hx
    cases hx

end Workflow
