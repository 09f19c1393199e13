import Mathlib
import Workflow.Proofs.Number.Rounding

/-!
# The nearest double

A rational number is rounded to the double in whose neighbourhood it lies. What is rounded is given
as a mantissa with an accuracy, which says how the number lies between the mantissa and the next
one; cutting off a place of the mantissa keeps that true. So products, quotients and decimals are
rounded to the nearest double, a tie going to the even mantissa.
-/

namespace Workflow.Double

open Float.Model Float.Model.UnpackedFloat

/-! ### Mantissas with an accuracy -/

/-- How a number lies from a mantissa, as an accuracy says. -/
def Approximates (m : Nat) (u : ℚ) : Accuracy → Prop
  | .exact => u = m
  | .inexact .lt => m < u ∧ u < m + 1 / 2
  | .inexact .eq => u = m + 1 / 2
  | .inexact .gt => m + 1 / 2 < u ∧ u < m + 1

/-- A natural number that no other one is nearer to; of two, the even one is meant. -/
structure IsNearest (r : Nat) (u : ℚ) : Prop where
  lower : r - 1 / 2 ≤ u
  upper : u ≤ r + 1 / 2
  even : u = r - 1 / 2 ∨ u = r + 1 / 2 → r % 2 = 0

section Approximates

variable {m r : Nat} {u : ℚ} {accuracy : Accuracy}

lemma Approximates.le (h : Approximates m u accuracy) : (m : ℚ) ≤ u ∧ u < m + 1 := by
  cases accuracy with
  | exact =>
    obtain rfl : u = m := h
    constructor <;> linarith
  | inexact relation =>
    cases relation with
    | lt => exact ⟨h.1.le, by linarith [h.2]⟩
    | eq =>
      obtain rfl : u = m + 1 / 2 := h
      constructor <;> linarith
    | gt => exact ⟨by linarith [h.1], h.2⟩

/-- Cutting off the last place halves the number. -/
lemma approximates_shiftRightOne {em : ExtendedMantissa}
    (h : Approximates em.mantissa u em.accuracy) :
    Approximates em.shiftRightOne.mantissa (u / 2) em.shiftRightOne.accuracy := by
  obtain ⟨m, roundBit, stickyBit⟩ := em
  obtain ⟨half, rfl | rfl⟩ := Nat.even_or_odd' m
  · have hbit : (2 * half % 2 != 0) = false := by simp
    have hhalf : 2 * half / 2 = half := by omega
    cases roundBit <;> cases stickyBit <;>
      simp only [ExtendedMantissa.shiftRightOne, ExtendedMantissa.accuracy, Approximates, hbit,
        hhalf, Bool.or_false, Bool.or_true, Nat.cast_mul, Nat.cast_ofNat] at h ⊢
    · linarith
    · constructor <;> linarith
    · constructor <;> linarith
    · constructor <;> linarith
  · have hbit : ((2 * half + 1) % 2 != 0) = true := by
      have : (2 * half + 1) % 2 = 1 := by omega
      simp [this]
    have hhalf : (2 * half + 1) / 2 = half := by omega
    cases roundBit <;> cases stickyBit <;>
      simp only [ExtendedMantissa.shiftRightOne, ExtendedMantissa.accuracy, Approximates, hbit,
        hhalf, Bool.or_false, Bool.or_true, Nat.cast_add, Nat.cast_mul, Nat.cast_ofNat,
        Nat.cast_one] at h ⊢
    · linarith
    · constructor <;> linarith
    · constructor <;> linarith
    · constructor <;> linarith

lemma approximates_shiftRight {em : ExtendedMantissa} (k : Nat)
    (h : Approximates em.mantissa u em.accuracy) :
    Approximates (em >>> k).mantissa (u / 2 ^ k) (em >>> k).accuracy := by
  induction k with
  | zero =>
    rw [pow_zero, div_one]
    exact h
  | succ k ih =>
    have hone := approximates_shiftRightOne ih
    rw [pow_succ, ← div_div]
    exact hone

/-- Rounding makes the nearest mantissa. -/
lemma Approximates.isNearest (h : Approximates m u accuracy) :
    IsNearest (accuracy.roundToNearestEven m) u := by
  cases accuracy with
  | exact =>
    obtain rfl : u = m := h
    refine ⟨?_, ?_, ?_⟩ <;> simp only [Accuracy.roundToNearestEven]
    · linarith
    · linarith
    · rintro (h | h) <;> linarith
  | inexact relation =>
    cases relation with
    | lt =>
      obtain ⟨hlower, hupper⟩ := h
      refine ⟨?_, ?_, ?_⟩ <;> simp only [Accuracy.roundToNearestEven]
      · linarith
      · linarith
      · rintro (h | h) <;> linarith
    | eq =>
      obtain rfl : u = m + 1 / 2 := h
      rcases Nat.mod_two_eq_zero_or_one m with heven | hodd
      · refine ⟨?_, ?_, ?_⟩ <;> simp only [Accuracy.roundToNearestEven, heven]
        · push_cast
          linarith
        · push_cast
          linarith
        · intro _
          omega
      · refine ⟨?_, ?_, ?_⟩ <;> simp only [Accuracy.roundToNearestEven, hodd]
        · push_cast
          linarith
        · push_cast
          linarith
        · intro _
          omega
    | gt =>
      obtain ⟨hlower, hupper⟩ := h
      refine ⟨?_, ?_, ?_⟩ <;> simp only [Accuracy.roundToNearestEven, Nat.cast_add, Nat.cast_one]
      · linarith
      · linarith
      · rintro (h | h) <;> linarith

lemma IsNearest.le {r' : Nat} (h : IsNearest r u) (h' : IsNearest r' u) : r ≤ r' := by
  by_contra hlt
  have hnext : r' + 1 ≤ r := by omega
  have hcast : (r' : ℚ) + 1 ≤ r := by exact_mod_cast hnext
  have hlower := h.lower
  have hupper := h'.upper
  have heq : (r : ℚ) = r' + 1 := by linarith
  have hr : r = r' + 1 := by exact_mod_cast heq
  have heven := h.even (.inl (by linarith))
  have heven' := h'.even (.inr (by linarith))
  omega

/-- There is one nearest number. -/
lemma IsNearest.unique {r' : Nat} (h : IsNearest r u) (h' : IsNearest r' u) : r = r' :=
  le_antisymm (h.le h') (h'.le h)

/-- Every number that is not negative lies in some way from a natural one. -/
lemma exists_approximates (hu : 0 ≤ u) : ∃ m accuracy, Approximates m u accuracy := by
  have hle := Nat.floor_le hu
  have hlt := Nat.lt_floor_add_one u
  refine ⟨⌊u⌋₊, ?_⟩
  rcases hle.eq_or_lt with heq | hless
  · exact ⟨.exact, heq.symm⟩
  · rcases lt_trichotomy u (⌊u⌋₊ + 1 / 2) with hlow | htie | hhigh
    · exact ⟨.inexact .lt, hless, hlow⟩
    · exact ⟨.inexact .eq, htie⟩
    · exact ⟨.inexact .gt, hhigh, hlt⟩

lemma exists_isNearest (hu : 0 ≤ u) : ∃ r, IsNearest r u := by
  obtain ⟨m, accuracy, h⟩ := exists_approximates hu
  exact ⟨_, h.isNearest⟩

end Approximates

/-! ### Rounding -/

/-- A mantissa and an exponent by which a positive finite double is given. -/
structure IsCanonical (m : Nat) (q : Int) : Prop where
  pos : 0 < m
  lt : m < 2 ^ 53
  least : -1074 ≤ q
  greatest : q ≤ 971
  full : 2 ^ 52 ≤ m ∨ q = -1074

/--
A number that rounds to a double. Below a power of two the doubles lie more closely, so that a
number is nearer to the one below by half as much.
-/
structure RoundsTo (m : Nat) (q : Int) (v : ℚ) : Prop where
  nearest : IsNearest m (v / 2 ^ q)
  close : m = 2 ^ 52 → -1074 < q → 2 ^ 52 - 1 / 4 ≤ v / 2 ^ q

section Rounding

variable {m : Nat} {q : Int} {v : ℚ} {mantissa : Nat} {exponent : Int} {accuracy : Accuracy}

lemma IsCanonical.log2_eq (h : IsCanonical m q) (hq : q ≠ -1074) : m.log2 = 52 := by
  have hfull := h.full.resolve_right hq
  have hlt := (Nat.log2_lt h.pos.ne').2 h.lt
  have hle := (Nat.le_log2 h.pos.ne').2 hfull
  omega

lemma IsCanonical.log2_le (h : IsCanonical m q) : m.log2 ≤ 52 :=
  Nat.le_of_lt_succ ((Nat.log2_lt h.pos.ne').2 h.lt)

lemma shiftToTargetExponent_eq_shiftRight (mantissa : Nat) (exponent : Int) (accuracy : Accuracy) :
    shiftToTargetExponent .binary64 mantissa exponent accuracy
      = let k := (max (mantissa.log2 + exponent - 52) (-1074) - exponent).toNat
        (ExtendedMantissa.ofMantissaAndAccuracy mantissa accuracy >>> k, exponent + k) := by
  rw [← targetExponent_eq]
  rfl

/-- A canonical mantissa is not shifted. -/
lemma IsCanonical.shift_eq_zero (h : IsCanonical m q) :
    (max ((m.log2 : Int) + q - 52) (-1074) - q).toNat = 0 := by
  have hle := h.log2_le
  by_cases hq : q = -1074
  · omega
  · have heq := h.log2_eq hq
    have hleast := h.least
    omega

/-- The binary place of a number is that of its mantissa. -/
lemma Approximates.two_pow_le (h : Approximates mantissa (v / 2 ^ exponent) accuracy)
    (hpos : 0 < mantissa) :
    (2 : ℚ) ^ (mantissa.log2 + exponent) ≤ v ∧ v < (2 : ℚ) ^ (mantissa.log2 + exponent + 1) := by
  have htwo : (0 : ℚ) < 2 ^ exponent := by positivity
  obtain ⟨hle, hlt⟩ := h.le
  rw [le_div_iff₀ htwo] at hle
  rw [div_lt_iff₀ htwo] at hlt
  have hlog : ((2 ^ mantissa.log2 : Nat) : ℚ) ≤ mantissa := by
    exact_mod_cast Nat.log2_self_le hpos.ne'
  have hnext : ((mantissa + 1 : Nat) : ℚ) ≤ (2 ^ (mantissa.log2 + 1) : Nat) := by
    exact_mod_cast Nat.lt_log2_self
  push_cast at hlog hnext
  constructor
  · rw [zpow_add₀ (by norm_num), zpow_natCast]
    exact (mul_le_mul_of_nonneg_right hlog htwo.le).trans hle
  · rw [show (mantissa.log2 : Int) + exponent + 1 = ((mantissa.log2 + 1 : Nat) : Int) + exponent by
      push_cast; ring, zpow_add₀ (by norm_num), zpow_natCast]
    exact hlt.trans_le (mul_le_mul_of_nonneg_right hnext htwo.le)

/-- The exponent at which a number is rounded, by the place at which the number begins. -/
lemma Approximates.targetExponent_eq (h : Approximates mantissa (v / 2 ^ exponent) accuracy)
    (place : Int)
    (hexponent : exponent ≤ max ((mantissa.log2 : Int) + exponent - 52) (-1074))
    (hlower : -1074 < place → (2 : ℚ) ^ (52 + place) ≤ v) (hupper : v < 2 ^ (53 + place))
    (hplace : -1074 ≤ place) :
    max ((mantissa.log2 : Int) + exponent - 52) (-1074) = place := by
  have hmono : ∀ a b : Int, (2 : ℚ) ^ a < 2 ^ b → a < b := fun a b =>
    (zpow_lt_zpow_iff_right₀ (by norm_num)).1
  by_cases hzero : mantissa = 0
  · subst hzero
    have hlt : v < 2 ^ exponent := by
      have := h.le.2
      rw [div_lt_iff₀ (by positivity)] at this
      simpa using this
    rw [Nat.log2_zero] at hexponent ⊢
    by_cases hleast : -1074 < place
    · have := hmono _ _ ((hlower hleast).trans_lt hlt)
      omega
    · omega
  · obtain ⟨hle, hlt⟩ := h.two_pow_le (Nat.pos_of_ne_zero hzero)
    have hbelow := hmono _ _ (hle.trans_lt hupper)
    by_cases hleast : -1074 < place
    · have := hmono _ _ ((hlower hleast).trans_lt hlt)
      omega
    · omega

/-- A number begins at the place at which it is rounded, unless all places are used up. -/
lemma Approximates.place {t : Int} (h : Approximates mantissa (v / 2 ^ exponent) accuracy)
    (ht : max ((mantissa.log2 : Int) + exponent - 52) (-1074) = t) (hexponent : exponent ≤ t) :
    (t ≠ -1074 → (2 : ℚ) ^ (52 + t) ≤ v) ∧ v < 2 ^ (53 + t) := by
  have hmono : ∀ {a b : Int}, a ≤ b → (2 : ℚ) ^ a ≤ 2 ^ b :=
    zpow_le_zpow_right₀ (by norm_num)
  by_cases hzero : mantissa = 0
  · subst hzero
    have hlt : v < 2 ^ exponent := by
      have := h.le.2
      rw [div_lt_iff₀ (by positivity)] at this
      simpa using this
    rw [Nat.log2_zero] at ht
    exact ⟨fun hplace => by omega, hlt.trans_le (hmono (by omega))⟩
  · obtain ⟨hle, hlt⟩ := h.two_pow_le (Nat.pos_of_ne_zero hzero)
    exact ⟨fun hplace => (hmono (by omega)).trans hle, hlt.trans_le (hmono (by omega))⟩

/-- The mantissa nearest to a number on the grid of the place at which the number begins. -/
lemma IsNearest.bounds {r : Nat} {t : Int} (hr : IsNearest r (v / 2 ^ t))
    (hplace : t ≠ -1074 → 2 ^ (52 + t) ≤ v) (hbelow : v < 2 ^ (53 + t)) :
    r ≤ 2 ^ 53 ∧ (t ≠ -1074 → 2 ^ 52 ≤ r) := by
  have hunit : (0 : ℚ) < 2 ^ t := by positivity
  have hpow : ∀ n : Nat, (2 : ℚ) ^ (n + t) = 2 ^ n * 2 ^ t := fun n => by
    rw [zpow_add₀ (by norm_num), zpow_natCast]
  constructor
  · rw [show (53 : Int) = (53 : Nat) by rfl, hpow, ← div_lt_iff₀ hunit] at hbelow
    have hlt : (r : ℚ) < (2 ^ 53 + 1 : Nat) := by
      push_cast
      linarith [hr.lower]
    have : r < 2 ^ 53 + 1 := by exact_mod_cast hlt
    omega
  · intro hne
    have hle := hplace hne
    rw [show (52 : Int) = (52 : Nat) by rfl, hpow, ← le_div_iff₀ hunit] at hle
    have hlt : ((2 ^ 52 : Nat) : ℚ) < (r + 1 : Nat) := by
      push_cast
      linarith [hr.upper]
    have : 2 ^ 52 < r + 1 := by exact_mod_cast hlt
    omega

/-- A number is rounded to the nearest mantissa at the exponent where it begins. -/
lemma roundWithAccuracy_of_isNearest {r : Nat} {t : Int}
    (h : Approximates mantissa (v / 2 ^ exponent) accuracy)
    (ht : max ((mantissa.log2 : Int) + exponent - 52) (-1074) = t) (hle : exponent ≤ t)
    (hr : IsNearest r (v / 2 ^ t)) (sign : Sign) :
    roundWithAccuracy .binary64 sign mantissa exponent accuracy =
      let k := (max ((r.log2 : Int) + t - 52) (-1074) - t).toNat
      if h : r / 2 ^ k = 0 then .zero sign
      else .finite sign (r / 2 ^ k) (t + k) (Nat.pos_of_ne_zero h) := by
  obtain ⟨k, hk⟩ : ∃ k : Nat, t = exponent + k := ⟨(t - exponent).toNat, by omega⟩
  have hshift : (t - exponent).toNat = k := by omega
  have hshifted : Approximates
      (ExtendedMantissa.ofMantissaAndAccuracy mantissa accuracy >>> k).mantissa (v / 2 ^ t)
      (ExtendedMantissa.ofMantissaAndAccuracy mantissa accuracy >>> k).accuracy := by
    have hgiven : Approximates (ExtendedMantissa.ofMantissaAndAccuracy mantissa accuracy).mantissa
        (v / 2 ^ exponent) (ExtendedMantissa.ofMantissaAndAccuracy mantissa accuracy).accuracy := by
      cases accuracy with
      | exact => exact h
      | inexact relation => cases relation <;> exact h
    have := approximates_shiftRight k hgiven
    rwa [div_div, ← zpow_natCast, ← zpow_add₀ (by norm_num), ← hk] at this
  have hrounded : (ExtendedMantissa.ofMantissaAndAccuracy mantissa accuracy >>> k).roundedMantissa
      = r := hshifted.isNearest.unique hr
  have hmantissa : ∀ k : Nat,
      (ExtendedMantissa.ofMantissaAndAccuracy r .exact >>> k).mantissa = r / 2 ^ k :=
    fun k => mantissa_shiftRight _ k
  rw [roundWithAccuracy, shiftToTargetExponent_eq_shiftRight]
  simp only [ht, hshift, hrounded, shiftToTargetExponent_eq_shiftRight, ← hk, hmantissa]

/-- What a mantissa is rounded to at a place: itself, or a power of two at the next place. -/
inductive ComesTo (sign : Sign) (r : Nat) (t : Int) : UnpackedFloat → Prop where
  | zero (h : r = 0) : ComesTo sign r t (.zero sign)
  | finite (h : 0 < r) (hlt : r < 2 ^ 53) : ComesTo sign r t (.finite sign r t h)
  | power (h : r = 2 ^ 53) : ComesTo sign r t (.finite sign (2 ^ 52) (t + 1) (Nat.two_pow_pos 52))

/-- A number is rounded to the nearest mantissa at the place where it begins. -/
lemma comesTo_roundWithAccuracy {r : Nat} {t : Int}
    (h : Approximates mantissa (v / 2 ^ exponent) accuracy)
    (ht : max ((mantissa.log2 : Int) + exponent - 52) (-1074) = t) (hle : exponent ≤ t)
    (hr : IsNearest r (v / 2 ^ t)) (hlimit : r ≤ 2 ^ 53) (sign : Sign) :
    ComesTo sign r t (roundWithAccuracy .binary64 sign mantissa exponent accuracy) := by
  rw [roundWithAccuracy_of_isNearest h ht hle hr]
  by_cases hpower : r = 2 ^ 53
  · -- the mantissa takes one place more, which is cut off
    subst hpower
    have hk : (max (((2 ^ 53 : Nat).log2 : Int) + t - 52) (-1074) - t).toNat = 1 := by
      rw [Nat.log2_two_pow]
      omega
    simp only [hk]
    exact .power rfl
  · have hlt : r < 2 ^ 53 := by omega
    have hk : (max ((r.log2 : Int) + t - 52) (-1074) - t).toNat = 0 := by
      have : r.log2 ≤ 52 := by
        by_cases hzero : r = 0
        · simp [hzero]
        · exact Nat.le_of_lt_succ ((Nat.log2_lt hzero).2 hlt)
      omega
    simp only [hk, pow_zero, Nat.div_one, Nat.cast_zero, add_zero]
    split_ifs with hzero
    · exact .zero hzero
    · exact .finite (Nat.pos_of_ne_zero hzero) hlt

lemma two_zpow_natCast_add (n : Nat) (q : Int) : (2 : ℚ) ^ (n + q) = 2 ^ n * 2 ^ q := by
  rw [zpow_add₀ (by norm_num), zpow_natCast]

/-- A number below the power of two that it rounds to is rounded at the place before. -/
lemma roundWithAccuracy_of_lt (hcanonical : IsCanonical m q) (hrounds : RoundsTo m q v)
    (h : Approximates mantissa (v / 2 ^ exponent) accuracy)
    (hexponent : exponent ≤ max ((mantissa.log2 : Int) + exponent - 52) (-1074)) (sign : Sign)
    (hq : -1074 < q) (hlt : v / 2 ^ q < 2 ^ 52) :
    roundWithAccuracy .binary64 sign mantissa exponent accuracy
      = .finite sign m q hcanonical.pos := by
  have hunit : (0 : ℚ) < 2 ^ q := by positivity
  have hfull : 2 ^ 52 ≤ m := hcanonical.full.resolve_right hq.ne'
  have hpower : m = 2 ^ 52 := by
    have hlower := hrounds.nearest.lower
    have hle : (m : ℚ) < (2 ^ 52 + 1 : Nat) := by
      push_cast
      linarith
    have : m < 2 ^ 52 + 1 := by exact_mod_cast hle
    omega
  subst hpower
  have hclose := hrounds.close rfl hq
  have hhalf : v / 2 ^ (q - 1) = 2 * (v / 2 ^ q) := by
    rw [zpow_sub_one₀ (by norm_num)]
    field_simp
  have ht := h.targetExponent_eq (q - 1) hexponent ?_ ?_ (by omega)
  · have hr : IsNearest (2 ^ 53) (v / 2 ^ (q - 1)) := by
      rw [hhalf]
      refine ⟨?_, ?_, fun _ => by norm_num⟩ <;> push_cast <;> linarith
    rw [roundWithAccuracy_of_isNearest h ht (by omega) hr]
    have hk : (max (((2 ^ 53 : Nat).log2 : Int) + (q - 1) - 52) (-1074) - (q - 1)).toNat = 1 := by
      rw [Nat.log2_two_pow]
      omega
    simp only [hk]
    norm_num
  · intro _
    rw [show 52 + (q - 1) = ((51 : Nat) : Int) + q by push_cast; ring, two_zpow_natCast_add]
    rw [← le_div_iff₀ hunit]
    linarith
  · rw [show 53 + (q - 1) = ((52 : Nat) : Int) + q by push_cast; ring, two_zpow_natCast_add]
    rwa [← div_lt_iff₀ hunit]

/-- What is rounded is the double that the number rounds to, if no place of it is missing. -/
lemma roundWithAccuracy_eq (hcanonical : IsCanonical m q) (hrounds : RoundsTo m q v)
    (h : Approximates mantissa (v / 2 ^ exponent) accuracy)
    (hexponent : exponent ≤ max ((mantissa.log2 : Int) + exponent - 52) (-1074)) (sign : Sign) :
    roundWithAccuracy .binary64 sign mantissa exponent accuracy
      = .finite sign m q hcanonical.pos := by
  have hunit : (0 : ℚ) < 2 ^ q := by positivity
  by_cases hbelow : -1074 < q ∧ v / 2 ^ q < 2 ^ 52
  · exact roundWithAccuracy_of_lt hcanonical hrounds h hexponent sign hbelow.1 hbelow.2
  · have ht := h.targetExponent_eq q hexponent ?_ ?_ hcanonical.least
    · rw [roundWithAccuracy_of_isNearest h ht (ht ▸ hexponent) hrounds.nearest]
      simp only [hcanonical.shift_eq_zero]
      simp [hcanonical.pos.ne']
    · intro hq
      rw [show 52 + q = ((52 : Nat) : Int) + q by push_cast; ring, two_zpow_natCast_add]
      rw [← le_div_iff₀ hunit]
      exact not_lt.1 fun hlt => hbelow ⟨hq, hlt⟩
    · rw [show 53 + q = ((53 : Nat) : Int) + q by push_cast; ring, two_zpow_natCast_add]
      rw [← div_lt_iff₀ hunit]
      have hm : (m : ℚ) + 1 ≤ 2 ^ 53 := by exact_mod_cast hcanonical.lt
      have := hrounds.nearest.upper
      linarith

/-- Unpacked doubles that come of rounding a positive number once, with no place of it missing. -/
inductive IsRounded (v : ℚ) : UnpackedFloat → Prop where
  | intro {mantissa : Nat} {exponent : Int} {accuracy : Accuracy}
      (h : Approximates mantissa (v / 2 ^ exponent) accuracy)
      (hexponent : exponent ≤ max ((mantissa.log2 : Int) + exponent - 52) (-1074)) :
      IsRounded v (roundWithAccuracy .binary64 .positive mantissa exponent accuracy)

lemma IsRounded.eq {u : UnpackedFloat} (h : IsRounded v u) (hcanonical : IsCanonical m q)
    (hrounds : RoundsTo m q v) : u = .finite .positive m q hcanonical.pos := by
  cases h with
  | intro h hexponent => exact roundWithAccuracy_eq hcanonical hrounds h hexponent .positive

end Rounding

end Workflow.Double
