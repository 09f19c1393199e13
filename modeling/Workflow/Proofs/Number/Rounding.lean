import Mathlib
import Workflow.Editor.Fingerprint

/-!
# Coordinates that can be rounded

A coordinate is rounded by adding one half and going down to an integer. The sum of a finite double
and one half is finite too, even at the end of the range: it exceeds the greatest finite double by
too little to be rounded up. An infinity or a NaN stays what it is and cannot be rounded.
-/

namespace Workflow.Double

open Float.Model Float.Model.UnpackedFloat

/-! ### Finite doubles and their bits -/

/-- The eleven bits of the exponent of a double. -/
def exponentBits (x : Float) : BitVec 11 :=
  @unpackExponent .binary64 x.toBits.toBitVec

lemma toNat_exponentBits (x : Float) :
    (exponentBits x).toNat = x.toBits.toNat / 0x10000000000000 % 0x800 := by
  simp [exponentBits, unpackExponent, BitVec.extractLsb, BitVec.extractLsb'_toNat,
    Nat.shiftRight_eq_div_pow]

lemma isFinite_iff {x : Float} : isFinite x = true ↔ exponentBits x ≠ -1#11 := by
  have h : exponentBits x = -1#11 ↔ x.toBits.toNat / 0x10000000000000 % 0x800 = 2047 := by
    rw [← toNat_exponentBits, ← BitVec.toNat_inj]
    rfl
  rw [Ne, h, isFinite, parts]
  by_cases hfield : x.toBits.toNat / 0x10000000000000 % 0x800 = 2047
  · by_cases hfraction : x.toBits.toNat % 0x10000000000000 = 0 <;> simp [hfield, hfraction]
  · by_cases hzero : x.toBits.toNat / 0x10000000000000 % 0x800 = 0 <;> simp [hfield, hzero]

lemma exists_floor_iff {x : Float} : (∃ n, floor x = .ok n) ↔ isFinite x = true := by
  rw [isFinite, floor]
  cases parts x with
  | nan | infinite negative => simp
  | finite negative mantissa exponent => by_cases hq : 0 ≤ exponent <;> simp [hq]

/-- An unpacked double within the range of the finite ones. -/
inductive InRange : UnpackedFloat → Prop where
  | zero (sign : Sign) : InRange (.zero sign)
  | finite (sign : Sign) {mantissa : Nat} {exponent : Int} (h : 0 < mantissa)
      (hmantissa : mantissa < 2 ^ 53) (hexponent : exponent ≤ 971) :
      InRange (.finite sign mantissa exponent h)

lemma inRange_unpack {x : Float} (h : isFinite x = true) : InRange x.toModel.unpack := by
  have hne := isFinite_iff.1 h
  have hfield : (exponentBits x).toNat ≤ 2046 := by
    have hlast : (exponentBits x).toNat ≠ 2047 := fun heq => hne (BitVec.eq_of_toNat_eq heq)
    have hlt := (exponentBits x).isLt
    omega
  have hbias : ((exponentBits x).toNat : Int)
      - (Format.binary64.exponentBias + Format.binary64.mantissaBitsWithoutImplicit)
      = (exponentBits x).toNat - 1075 := rfl
  change InRange (UnpackedFloat.unpack .binary64 x.toBits.toBitVec)
  rw [exponentBits] at hne hbias
  rw [UnpackedFloat.unpack]
  simp only [hbias]
  rw [if_neg hne]
  split_ifs with hzero hfraction
  · exact .zero _
  · rw [hzero]
    exact .finite _ _ (lt_of_lt_of_le (BitVec.isLt _) (by decide)) (by decide)
  · refine .finite _ _ (BitVec.isLt _) ?_
    exact (by omega : ((exponentBits x).toNat : Int) - 1075 ≤ 971)

lemma isFinite_pack {u : UnpackedFloat} (h : InRange u) :
    isFinite (.ofModel (Float.Model.pack u)) = true := by
  rw [isFinite_iff]
  change @unpackExponent .binary64 (UnpackedFloat.pack .binary64 u) ≠ -1#11
  cases h with
  | zero sign =>
    rw [UnpackedFloat.pack, packedZero, unpackExponent_packComponents]
    decide
  | @finite sign mantissa exponent h hmantissa hexponent =>
    have hfield : (exponent + (Format.binary64.exponentBias : Nat) + (52 : Nat)).toNat < 2047 := by
      change (exponent + (1023 : Nat) + (52 : Nat)).toNat < 2047
      omega
    rw [UnpackedFloat.pack]
    simp only
    rw [if_neg (by omega)]
    split_ifs
    · rw [unpackExponent_packComponents]
      intro heq
      have hlast := congrArg BitVec.toNat heq
      rw [BitVec.toNat_ofNat, Nat.mod_eq_of_lt (hfield.trans (by decide))] at hlast
      exact hfield.ne hlast
    · rw [unpackExponent_packComponents]
      decide

/-! ### Rounding -/

lemma mantissa_shiftRight (em : ExtendedMantissa) (k : Nat) :
    (em >>> k).mantissa = em.mantissa / 2 ^ k := by
  induction k generalizing em with
  | zero => exact (Nat.div_one _).symm
  | succ k ih =>
    change (em >>> k).mantissa / 2 = _
    rw [ih, Nat.div_div_eq_div_mul, pow_succ]

/-- The bit after the point is that of which a shift by one place less would be odd. -/
lemma roundBit_shiftRight (em : ExtendedMantissa) (k : Nat) :
    (em >>> (k + 1)).roundBit = (em.mantissa / 2 ^ k % 2 != 0) := by
  rw [← mantissa_shiftRight]
  rfl

lemma roundedMantissa_le (em : ExtendedMantissa) : em.roundedMantissa ≤ em.mantissa + 1 := by
  obtain ⟨mantissa, roundBit, stickyBit⟩ := em
  cases roundBit <;> cases stickyBit <;>
    simp only [ExtendedMantissa.roundedMantissa, ExtendedMantissa.accuracy,
      Accuracy.roundToNearestEven] <;> omega

lemma roundedMantissa_eq {em : ExtendedMantissa} (h : em.roundBit = false) :
    em.roundedMantissa = em.mantissa := by
  obtain ⟨mantissa, roundBit, stickyBit⟩ := em
  obtain rfl : roundBit = false := h
  cases stickyBit <;> rfl

lemma targetExponent_eq (mantissa : Nat) (exponent : Int) :
    Format.binary64.targetExponent (totalExponent mantissa exponent)
      = max (mantissa.log2 + exponent - 52) (-1074) := by
  have hbits : (Format.binary64.mantissaBits : Int) = 53 := rfl
  have hleast : Format.binary64.minExponent = -1074 := rfl
  rw [Format.targetExponent, totalExponent, hbits, hleast]
  omega

/--
A magnitude at an exponent of -53 or less that exceeds the greatest finite double by at most one
half.
-/
def NearRange (mantissa : Nat) (exponent : Int) : Prop :=
  ∃ d : Nat, exponent = -53 - d ∧ mantissa ≤ (2 ^ 53 - 1) * 2 ^ (1024 + d) + 2 ^ (52 + d)

lemma NearRange.shiftLeft {mantissa : Nat} {exponent : Int} (h : NearRange mantissa exponent)
    (k : Nat) : NearRange (mantissa <<< k) (exponent - k) := by
  obtain ⟨d, rfl, hle⟩ := h
  refine ⟨d + k, by push_cast; ring, ?_⟩
  rw [Nat.shiftLeft_eq]
  calc mantissa * 2 ^ k
      ≤ ((2 ^ 53 - 1) * 2 ^ (1024 + d) + 2 ^ (52 + d)) * 2 ^ k := Nat.mul_le_mul_right _ hle
    _ = (2 ^ 53 - 1) * 2 ^ (1024 + (d + k)) + 2 ^ (52 + (d + k)) := by
      rw [Nat.add_mul, Nat.mul_assoc, ← pow_add, ← pow_add, Nat.add_assoc, Nat.add_assoc]

lemma shiftToTargetExponent_eq (mantissa : Nat) (exponent : Int) :
    shiftToTargetExponent .binary64 mantissa exponent .exact
      = let k := (max (mantissa.log2 + exponent - 52) (-1074) - exponent).toNat
        ((⟨mantissa, false, false⟩ : ExtendedMantissa) >>> k, exponent + k) := by
  rw [← targetExponent_eq]
  rfl

section NearRange

variable {mantissa : Nat} {exponent : Int}

lemma NearRange.log2_le (h : NearRange mantissa exponent) : mantissa.log2 + exponent ≤ 1023 := by
  obtain ⟨d, rfl, hle⟩ := h
  have hsmall : 2 ^ (52 + d) < 2 ^ (1024 + d) := Nat.pow_lt_pow_right (by norm_num) (by omega)
  have hlimit : 2 ^ (1077 + d) = 2 ^ 53 * 2 ^ (1024 + d) := by
    rw [← pow_add]
    congr 1
    omega
  have hlt : mantissa < 2 ^ (1077 + d) := by omega
  by_cases hzero : mantissa = 0
  · rw [hzero, Nat.log2_zero]
    omega
  · have := (Nat.log2_lt hzero).2 hlt
    omega

/-- At the end of the range nothing is rounded up to a power of two. -/
lemma NearRange.roundedMantissa_lt (h : NearRange mantissa exponent) {k : Nat}
    (hk : exponent + k = 971) :
    ((⟨mantissa, false, false⟩ : ExtendedMantissa) >>> k).roundedMantissa < 2 ^ 53 := by
  obtain ⟨d, rfl, hle⟩ := h
  obtain rfl : k = 1023 + d + 1 := by omega
  generalize hem : (⟨mantissa, false, false⟩ : ExtendedMantissa) = em
  have hmantissa : em.mantissa = mantissa := by rw [← hem]
  have hsmall : 2 ^ (52 + d) < 2 ^ (1023 + d) := Nat.pow_lt_pow_right (by norm_num) (by omega)
  have hlimit : 2 ^ (1024 + d) = 2 * 2 ^ (1023 + d) := by
    rw [← pow_succ']
    congr 1
    omega
  -- before the last place is cut off, there is room for twice the limit and no more
  have hhalf : mantissa / 2 ^ (1023 + d) < 2 * (2 ^ 53 - 1) + 1 := by
    apply (Nat.div_lt_iff_lt_mul (Nat.two_pow_pos _)).2
    omega
  have hshifted : (em >>> (1023 + d + 1)).mantissa = mantissa / 2 ^ (1023 + d) / 2 := by
    rw [mantissa_shiftRight, hmantissa, pow_succ, Nat.div_div_eq_div_mul]
  by_cases heven : mantissa / 2 ^ (1023 + d) % 2 = 0
  · have hbit : (em >>> (1023 + d + 1)).roundBit = false := by
      rw [roundBit_shiftRight, hmantissa, heven]
      rfl
    rw [roundedMantissa_eq hbit, hshifted]
    omega
  · have := roundedMantissa_le (em >>> (1023 + d + 1))
    rw [hshifted] at this
    omega

lemma NearRange.inRange_roundWithAccuracy (h : NearRange mantissa exponent) (sign : Sign) :
    InRange (roundWithAccuracy .binary64 sign mantissa exponent .exact) := by
  have hlog := h.log2_le
  have hlt := fun k => h.roundedMantissa_lt (k := k)
  obtain ⟨d, hexponent, -⟩ := h
  rw [roundWithAccuracy, shiftToTargetExponent_eq]
  simp only [shiftToTargetExponent_eq]
  generalize hk : (max (mantissa.log2 + exponent - 52) (-1074) - exponent).toNat = k
  generalize hr : ((⟨mantissa, false, false⟩ : ExtendedMantissa) >>> k).roundedMantissa = r
  have hr_le : r ≤ 2 ^ 53 := by
    have hq : mantissa / 2 ^ k < 2 ^ 53 := by
      apply (Nat.div_lt_iff_lt_mul (Nat.two_pow_pos _)).2
      rw [← pow_add]
      exact Nat.lt_of_lt_of_le Nat.lt_log2_self (Nat.pow_le_pow_right (by norm_num) (by omega))
    have := roundedMantissa_le ((⟨mantissa, false, false⟩ : ExtendedMantissa) >>> k)
    rw [mantissa_shiftRight, hr] at this
    exact this.trans hq
  -- only at the last exponent would one more place lead out of the range
  have hr_lt : exponent + k = 971 → r < 2 ^ 53 := fun hlast => hr ▸ hlt k hlast
  have hleast : -1074 ≤ exponent + k := by omega
  by_cases hlimit : r = 2 ^ 53
  · -- rounding made a power of two, which is shifted by one more place
    have hj : (max (r.log2 + (exponent + k) - 52) (-1074) - (exponent + k)).toNat = 1 := by
      rw [hlimit, Nat.log2_two_pow]
      omega
    have hmantissa : ((⟨r, false, false⟩ : ExtendedMantissa) >>> 1).mantissa = 2 ^ 52 := by
      rw [mantissa_shiftRight, hlimit]
      norm_num
    simp only [hj, hmantissa]
    exact .finite sign _ (by norm_num) (by omega)
  · have hsmall : r < 2 ^ 53 := by omega
    have hj : (max (r.log2 + (exponent + k) - 52) (-1074) - (exponent + k)).toNat = 0 := by
      have : r.log2 ≤ 52 := by
        by_cases hzero : r = 0
        · simp [hzero]
        · exact Nat.le_of_lt_succ ((Nat.log2_lt hzero).2 hsmall)
      omega
    have hmantissa : ((⟨r, false, false⟩ : ExtendedMantissa) >>> 0).mantissa = r := rfl
    simp only [hj, hmantissa]
    split_ifs
    · exact .zero sign
    · exact .finite sign _ hsmall (by omega)

lemma NearRange.inRange_round (h : NearRange mantissa exponent) (sign : Sign) :
    InRange (UnpackedFloat.round .binary64 sign mantissa exponent) := by
  rw [UnpackedFloat.round, decreaseExponent]
  exact (h.shiftLeft _).inRange_roundWithAccuracy sign

end NearRange

/-! ### Adding one half -/

lemma unpack_half : (0.5 : Float).toModel.unpack = .finite .positive (2 ^ 52) (-53) (by norm_num) :=
  rfl

lemma inRange_normalize {mantissa exponent : Int} (h : NearRange mantissa.natAbs exponent)
    (sign : Sign) : InRange (UnpackedFloat.normalize .binary64 mantissa exponent sign) := by
  rw [UnpackedFloat.normalize]
  split
  · next hneg =>
    have : mantissa < 0 := compare_lt_iff_lt.1 hneg
    rw [show (-mantissa).toNat = mantissa.natAbs by omega]
    exact h.inRange_round _
  · exact .zero sign
  · next hpos =>
    have : 0 < mantissa := compare_gt_iff_gt.1 hpos
    rw [show mantissa.toNat = mantissa.natAbs by omega]
    exact h.inRange_round _

lemma InRange.add_half {u : UnpackedFloat} (h : InRange u) :
    InRange (UnpackedFloat.add .binary64 u (0.5 : Float).toModel.unpack) := by
  rw [unpack_half]
  cases h with
  | zero sign => exact .finite .positive _ (by norm_num) (by norm_num)
  | @finite sign mantissa exponent h hmantissa hexponent =>
    rw [UnpackedFloat.add]
    simp only [decreaseExponent, Nat.shiftLeft_eq]
    apply inRange_normalize
    obtain ⟨d, hd⟩ : ∃ d : Nat, min exponent (-53) = -53 - d :=
      ⟨(-53 - min exponent (-53)).toNat, by omega⟩
    rw [hd]
    have hhalf : (-53 - (-53 - d : Int)).toNat = d := by omega
    have hshift : (exponent - (-53 - d)).toNat ≤ 1024 + d := by omega
    have hpow : 2 ^ (52 + d) = 2 ^ 52 * 2 ^ d := pow_add 2 52 d
    have hfirst : mantissa * 2 ^ (exponent - (-53 - d)).toNat
        ≤ (2 ^ 53 - 1) * 2 ^ (1024 + d) :=
      Nat.mul_le_mul (by omega) (Nat.pow_le_pow_right (by norm_num) hshift)
    refine ⟨d, rfl, ?_⟩
    rw [hhalf, hpow]
    cases sign <;> simp only [Sign.apply] <;> omega

/-- An unpacked double outside the range of the finite ones. -/
inductive Beyond : UnpackedFloat → Prop where
  | infinity (sign : Sign) : Beyond (.infinity sign)
  | notANumber : Beyond .notANumber

lemma beyond_unpack {x : Float} (h : isFinite x = false) : Beyond x.toModel.unpack := by
  have hlast : exponentBits x = -1#11 := by
    by_contra hne
    simp [isFinite_iff.2 hne] at h
  change Beyond (UnpackedFloat.unpack .binary64 x.toBits.toBitVec)
  rw [exponentBits] at hlast
  rw [UnpackedFloat.unpack]
  simp only
  rw [if_pos hlast]
  split_ifs
  · exact .infinity _
  · exact .notANumber

lemma Beyond.add_half {u : UnpackedFloat} (h : Beyond u) :
    Beyond (UnpackedFloat.add .binary64 u (0.5 : Float).toModel.unpack) := by
  rw [unpack_half]
  cases h with
  | infinity sign => exact .infinity sign
  | notANumber => exact .notANumber

lemma not_isFinite_pack {u : UnpackedFloat} (h : Beyond u) :
    isFinite (.ofModel (Float.Model.pack u)) = false := by
  rw [← Bool.not_eq_true, isFinite_iff, not_not]
  change @unpackExponent .binary64 (UnpackedFloat.pack .binary64 u) = -1#11
  cases h with
  | infinity sign => rw [UnpackedFloat.pack, packedInfinity, unpackExponent_packComponents]
  | notANumber => rw [UnpackedFloat.pack, packedNaN, unpackExponent_packComponents]

/-- A coordinate can be rounded if and only if it is finite. -/
theorem exists_roundHalfUp_iff {x : Float} :
    (∃ n, roundHalfUp x = .ok n) ↔ isFinite x = true := by
  have hsum : isFinite (x + 0.5) = isFinite x := by
    cases hx : isFinite x with
    | true => exact isFinite_pack (inRange_unpack hx).add_half
    | false => exact not_isFinite_pack (beyond_unpack hx).add_half
  rw [roundHalfUp, exists_floor_iff, hsum]

end Workflow.Double
