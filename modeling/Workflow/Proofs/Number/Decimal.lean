import Workflow.Proofs.Number.Nearest

/-!
# Decimals that are read

A decimal is read as the nearest double: if it lies in the neighbourhood of a double, that double is
what it is read as.
-/

namespace Workflow.Double

open Float.Model Float.Model.UnpackedFloat

/-! ### Doubles and their parts -/

/-- The sign that is meant by a first bit. -/
def signOf (negative : Bool) : Sign :=
  if negative then .negative else .positive

lemma eq_of_toBits {x y : Float} (h : x.toBits = y.toBits) : x = y := by
  obtain ⟨⟨a, ha⟩⟩ := x
  obtain ⟨⟨b, hb⟩⟩ := y
  obtain rfl : a = b := h
  rfl

section Parts

variable {x : Float} {negative : Bool} {m : Nat} {q : Int}

/-- The bits of a double, by its parts. -/
lemma toNat_of_parts (h : parts x = .finite negative m q) :
    x.toBits.toNat = (if negative then 0x8000000000000000 else 0)
      + (if 0x10000000000000 ≤ m then (q + 1075).toNat * 0x10000000000000 + (m - 0x10000000000000)
        else m) := by
  have hbits := x.toBits.toNat_lt
  have hsign : ∀ k : Nat, decide (0x8000000000000000 ≤ x.toBits.toNat) = negative →
      x.toBits.toNat % 0x8000000000000000 = k →
      x.toBits.toNat = (if negative then 0x8000000000000000 else 0) + k := by
    rintro k rfl rfl
    by_cases hfirst : 0x8000000000000000 ≤ x.toBits.toNat
    · simp only [hfirst, decide_true, if_true]
      omega
    · simp only [hfirst, decide_false, Bool.false_eq_true, if_false]
      omega
  simp only [parts] at h
  split_ifs at h with hlast hnan hzero
  · obtain ⟨hnegative, rfl, rfl⟩ := DoubleParts.finite.inj h
    refine hsign _ hnegative ?_
    rw [if_neg (by omega)]
    omega
  · obtain ⟨hnegative, rfl, rfl⟩ := DoubleParts.finite.inj h
    refine hsign _ hnegative ?_
    rw [if_pos (by omega)]
    omega

lemma isCanonical_of_parts (h : parts x = .finite negative m q) (hm : m ≠ 0) : IsCanonical m q := by
  simp only [parts] at h
  split_ifs at h with hlast hnan hzero
  · obtain ⟨-, rfl, rfl⟩ := DoubleParts.finite.inj h
    exact ⟨Nat.pos_of_ne_zero hm, by omega, le_rfl, by norm_num, .inr rfl⟩
  · obtain ⟨-, rfl, rfl⟩ := DoubleParts.finite.inj h
    exact ⟨by omega, by omega, by omega, by omega, .inl (by omega)⟩

end Parts

/-! ### Packing -/

section Packing

variable {m : Nat} {q : Int}

lemma unpackSign_packComponents {spec : Format} (sign : Sign) (exponent : BitVec spec.exponentBits)
    (mantissa : BitVec spec.mantissaBitsWithoutImplicit) :
    unpackSign (packComponents spec sign exponent mantissa) = sign.toBitVec := by
  refine BitVec.eq_of_getLsbD_eq fun i hi => ?_
  obtain rfl : i = 0 := by omega
  simp [unpackSign, packComponents, BitVec.getLsbD_append, BitVec.getElem_append]

/-- The field of the exponent of a finite double. -/
def exponentField (m : Nat) (q : Int) : BitVec 11 :=
  if 0x10000000000000 ≤ m then BitVec.ofNat 11 (q + 1075).toNat else 0#11

lemma pack_finite (h : IsCanonical m q) (sign : Sign) :
    UnpackedFloat.pack .binary64 (.finite sign m q h.pos)
      = packComponents .binary64 sign (exponentField m q) (BitVec.ofNat 52 m) := by
  have hfield : (q + (Format.binary64.exponentBias : Nat) + (52 : Nat)).toNat
      = (q + 1075).toNat := by
    change (q + (1023 : Nat) + (52 : Nat)).toNat = _
    congr 1
    push_cast
    ring
  have hleast := h.least
  have hgreatest := h.greatest
  have hlog : m.log2 + 1 = 53 ↔ 0x10000000000000 ≤ m := by
    have hle := h.log2_le
    constructor
    · intro hlog
      exact (Nat.le_log2 (k := 52) h.pos.ne').1 (by omega)
    · intro hfull
      have := (Nat.le_log2 (k := 52) h.pos.ne').2 hfull
      omega
  rw [UnpackedFloat.pack, exponentField]
  dsimp only
  rw [hfield, if_neg (by change ¬2048 ≤ _; omega)]
  change (if m.log2 + 1 = 53 then _ else _) = _
  by_cases hfull : 0x10000000000000 ≤ m
  · rw [if_pos (hlog.2 hfull), if_pos hfull]
  · rw [if_neg (mt hlog.1 hfull), if_neg hfull]

lemma ofBitVec_signOf (negative : Bool) :
    Sign.ofBitVec (signOf negative).toBitVec = signOf negative := by
  cases negative <;> rfl

lemma toNat_exponentField (h : IsCanonical m q) :
    (exponentField m q).toNat = if 0x10000000000000 ≤ m then (q + 1075).toNat else 0 := by
  have hgreatest := h.greatest
  rw [exponentField]
  split_ifs
  · rw [BitVec.toNat_ofNat, Nat.mod_eq_of_lt (by omega)]
  · rfl

lemma finite_congr {sign : Sign} {m m' : Nat} {q q' : Int} {h : 0 < m} {h' : 0 < m'} (hm : m = m')
    (hq : q = q') : UnpackedFloat.finite sign m q h = .finite sign m' q' h' := by
  subst hm hq
  rfl

/-- The last exponent is kept for what is not finite. -/
lemma exponentField_ne_last (h : IsCanonical m q) : exponentField m q ≠ -1#11 := by
  intro heq
  have hgreatest := h.greatest
  have hlast := congrArg BitVec.toNat heq
  rw [toNat_exponentField h] at hlast
  change _ = 2047 at hlast
  split_ifs at hlast
  all_goals omega

/-- A mantissa of all places has an exponent of its own. -/
lemma exponentField_eq_zero_iff (h : IsCanonical m q) :
    exponentField m q = 0#11 ↔ ¬0x10000000000000 ≤ m := by
  constructor
  · intro hzero hfull
    have hleast := h.least
    have hnone := congrArg BitVec.toNat hzero
    rw [toNat_exponentField h, if_pos hfull] at hnone
    change _ = 0 at hnone
    omega
  · exact fun hsmall => if_neg hsmall

/-- The first place of a mantissa of all places is not stored. -/
lemma toNat_mantissa_full (h : IsCanonical m q) (hfull : 0x10000000000000 ≤ m) :
    (1#1 ++ BitVec.ofNat 52 m).toNat = m := by
  have hlt := h.lt
  rw [BitVec.toNat_append, ← Nat.shiftLeft_add_eq_or_of_lt (BitVec.isLt _), BitVec.toNat_ofNat,
    Nat.shiftLeft_eq]
  simp only [BitVec.toNat_ofNat]
  omega

lemma toNat_mantissa_small (hsmall : ¬0x10000000000000 ≤ m) : (BitVec.ofNat 52 m).toNat = m := by
  rw [BitVec.toNat_ofNat]
  omega

/-- A packed double is unpacked again. -/
lemma unpack_pack (h : IsCanonical m q) (negative : Bool) :
    (Float.Model.pack (.finite (signOf negative) m q h.pos)).unpack
      = .finite (signOf negative) m q h.pos := by
  have hbias : (Format.binary64.exponentBias : Int) + (52 : Nat) = 1075 := rfl
  have hleast := h.least
  change UnpackedFloat.unpack .binary64
    (UnpackedFloat.pack .binary64 (.finite (signOf negative) m q h.pos)) = _
  rw [pack_finite h, UnpackedFloat.unpack]
  simp only [unpackMantissa_packComponents, unpackExponent_packComponents,
    unpackSign_packComponents, ofBitVec_signOf, hbias]
  rw [if_neg (exponentField_ne_last h)]
  by_cases hfull : 0x10000000000000 ≤ m
  · rw [if_neg ((exponentField_eq_zero_iff h).not_left.2 hfull)]
    apply finite_congr (toNat_mantissa_full h hfull)
    rw [toNat_exponentField h, if_pos hfull]
    omega
  · have hmantissa : BitVec.ofNat 52 m ≠ 0#52 := by
      intro heq
      have hnone := (congrArg BitVec.toNat heq).symm.trans (toNat_mantissa_small hfull)
      exact h.pos.ne hnone
    rw [if_pos ((exponentField_eq_zero_iff h).2 hfull), dif_neg hmantissa]
    apply finite_congr (toNat_mantissa_small hfull)
    rw [(exponentField_eq_zero_iff h).2 hfull]
    have := h.full
    simp only [BitVec.toNat_ofNat]
    omega

lemma toNat_packComponents (negative : Bool) (exponent : BitVec 11) (mantissa : BitVec 52) :
    (packComponents .binary64 (signOf negative) exponent mantissa).toNat
      = (if negative then 0x8000000000000000 else 0) + exponent.toNat * 0x10000000000000
        + mantissa.toNat := by
  have hsign : (signOf negative).toBitVec.toNat = if negative then 1 else 0 := by
    cases negative <;> rfl
  change ((signOf negative).toBitVec ++ exponent ++ mantissa).toNat = _
  rw [BitVec.toNat_append, BitVec.toNat_append, ← Nat.shiftLeft_add_eq_or_of_lt mantissa.isLt,
    ← Nat.shiftLeft_add_eq_or_of_lt exponent.isLt, hsign, Nat.shiftLeft_eq, Nat.shiftLeft_eq]
  split_ifs <;> omega

/-- A double is what its parts are packed to. -/
lemma ofModel_pack_of_parts {x : Float} {negative : Bool} (h : parts x = .finite negative m q)
    (hcanonical : IsCanonical m q) :
    .ofModel (Float.Model.pack (.finite (signOf negative) m q hcanonical.pos)) = x := by
  refine eq_of_toBits (UInt64.toNat.inj ?_)
  rw [toNat_of_parts h]
  change (UnpackedFloat.pack .binary64 (.finite (signOf negative) m q hcanonical.pos)).toNat = _
  have hlt := hcanonical.lt
  rw [pack_finite hcanonical, toNat_packComponents, toNat_exponentField hcanonical,
    BitVec.toNat_ofNat, Nat.add_assoc]
  congr 1
  split_ifs <;> omega

end Packing

/-- What a double is unpacked to, by its parts. -/
lemma unpack_of_parts {x : Float} {negative : Bool} {m : Nat} {q : Int}
    (h : parts x = .finite negative m q) (hcanonical : IsCanonical m q) :
    x.toModel.unpack = .finite (signOf negative) m q hcanonical.pos := by
  rw [← ofModel_pack_of_parts h hcanonical]
  exact unpack_pack hcanonical negative

/-! ### Products and quotients -/

section Operations

variable {m m₁ m₂ : Nat} {q e₁ e₂ : Int} {v : ℚ}

/-- A double is rounded to itself. -/
lemma roundsTo_self (m : Nat) (q : Int) : RoundsTo m q (m * 2 ^ q) := by
  have hunit : (2 : ℚ) ^ q ≠ 0 := by positivity
  have hvalue : (m : ℚ) * 2 ^ q / 2 ^ q = m := by field_simp
  refine ⟨⟨?_, ?_, ?_⟩, ?_⟩ <;> rw [hvalue]
  · linarith
  · linarith
  · rintro (h | h) <;> linarith
  · rintro rfl -
    norm_num

lemma approximates_fraction (n : Nat) {d : Nat} (hd : 0 < d) :
    Approximates (n / d) (n / d) (accuracyOfFraction (n % d) d) := by
  have hpos : (0 : ℚ) < d := by exact_mod_cast hd
  have hvalue : (n : ℚ) / d = (n / d : Nat) + ((n % d : Nat) : ℚ) / d := by
    have hsum : ((d * (n / d) + n % d : Nat) : ℚ) = n := by rw [Nat.div_add_mod]
    rw [Nat.cast_add, Nat.cast_mul] at hsum
    field_simp
    linarith
  have hlt : ((n % d : Nat) : ℚ) < d := by exact_mod_cast Nat.mod_lt n hd
  rw [accuracyOfFraction]
  split_ifs with hzero
  · change _ = _
    rw [hvalue, hzero]
    simp
  · have hrest : (0 : ℚ) < (n % d : Nat) := by exact_mod_cast Nat.pos_of_ne_zero hzero
    rw [hvalue]
    rcases lt_trichotomy (2 * (n % d)) d with hless | hequal | hmore
    · rw [compare_lt_iff_lt.2 hless]
      have : (2 : ℚ) * (n % d : Nat) < d := by exact_mod_cast hless
      constructor
      · have := div_pos hrest hpos
        linarith
      · have : ((n % d : Nat) : ℚ) / d < 1 / 2 := by
          rw [div_lt_div_iff₀ hpos (by norm_num)]
          linarith
        linarith
    · rw [compare_eq_iff_eq.2 hequal]
      have : (2 : ℚ) * (n % d : Nat) = d := by exact_mod_cast hequal
      change _ = _
      rw [← this]
      field_simp
    · rw [compare_gt_iff_gt.2 hmore]
      have : (d : ℚ) < 2 * (n % d : Nat) := by exact_mod_cast hmore
      constructor
      · have : 1 / 2 < ((n % d : Nat) : ℚ) / d := by
          rw [div_lt_div_iff₀ (by norm_num) hpos]
          linarith
        linarith
      · have := (div_lt_one hpos).2 hlt
        linarith

/-- A product of mantissas with enough places is rounded once. -/
lemma isRounded_mul (h₁ : 0 < m₁) (h₂ : 0 < m₂) (hwide : 2 ^ 52 ≤ m₁ * m₂) :
    IsRounded (m₁ * 2 ^ e₁ * (m₂ * 2 ^ e₂))
      (UnpackedFloat.mul .binary64 (.finite .positive m₁ e₁ h₁) (.finite .positive m₂ e₂ h₂)) := by
  rw [UnpackedFloat.mul]
  refine .intro ?_ ?_
  · change _ = _
    rw [zpow_add₀ (by norm_num)]
    push_cast
    field_simp
  · have := (Nat.le_log2 (Nat.mul_pos h₁ h₂).ne').2 hwide
    omega

lemma two_pow_le_div (h₁ : 0 < m₁) (h₂ : 0 < m₂) {s : Nat} (hs : m₂.log2 + 53 ≤ m₁.log2 + s) :
    2 ^ 52 ≤ (m₁ <<< s) / m₂ := by
  rw [Nat.le_div_iff_mul_le h₂, Nat.shiftLeft_eq]
  calc 2 ^ 52 * m₂
      ≤ 2 ^ 52 * 2 ^ (m₂.log2 + 1) := Nat.mul_le_mul_left _ Nat.lt_log2_self.le
    _ = 2 ^ (m₂.log2 + 53) := by
      rw [← pow_add]
      congr 1
      omega
    _ ≤ 2 ^ (m₁.log2 + s) := Nat.pow_le_pow_right (by norm_num) hs
    _ = 2 ^ m₁.log2 * 2 ^ s := pow_add _ _ _
    _ ≤ m₁ * 2 ^ s := Nat.mul_le_mul_right _ (Nat.log2_self_le h₁.ne')

/-- A quotient is rounded once. -/
lemma isRounded_div (h₁ : 0 < m₁) (h₂ : 0 < m₂) :
    IsRounded (m₁ * 2 ^ e₁ / (m₂ * 2 ^ e₂))
      (UnpackedFloat.div .binary64 (.finite .positive m₁ e₁ h₁) (.finite .positive m₂ e₂ h₂)) := by
  have htarget : Format.binary64.targetExponent (totalExponent m₁ e₁ - totalExponent m₂ e₂)
      = max (((m₁.log2 : Int) + e₁) - (m₂.log2 + e₂) - 53) (-1074) := by
    have hbits : (Format.binary64.mantissaBits : Int) = 53 := rfl
    have hleast : Format.binary64.minExponent = -1074 := rfl
    rw [Format.targetExponent, totalExponent, totalExponent, hbits, hleast]
    omega
  rw [UnpackedFloat.div, divCore, htarget]
  dsimp only
  generalize ht : min (e₁ - e₂) (max (((m₁.log2 : Int) + e₁) - (m₂.log2 + e₂) - 53) (-1074)) = t
  obtain ⟨s, hs⟩ : ∃ s : Nat, e₁ - e₂ - t = s := ⟨(e₁ - e₂ - t).toNat, by omega⟩
  have hshift : (e₁ - e₂ - t).toNat = s := by omega
  have hm₂ : (m₂ : ℚ) ≠ 0 := by exact_mod_cast h₂.ne'
  have hshifted : (m₁ : ℚ) * 2 ^ e₁ / (m₂ * 2 ^ e₂) / 2 ^ t = ((m₁ <<< s : Nat) : ℚ) / m₂ := by
    have hpow : (2 : ℚ) ^ s = 2 ^ e₁ / 2 ^ e₂ / 2 ^ t := by
      rw [← zpow_natCast, ← hs, zpow_sub₀ (by norm_num), zpow_sub₀ (by norm_num)]
    rw [Nat.shiftLeft_eq]
    push_cast
    rw [hpow]
    field_simp
  rw [hshift]
  refine .intro ?_ ?_
  · rw [hshifted]
    exact approximates_fraction _ h₂
  · by_cases hleast : t ≤ -1074
    · omega
    · have hwide := two_pow_le_div h₁ h₂ (s := s) (by omega)
      have := (Nat.le_log2 (by omega)).2 hwide
      omega

end Operations

/-! ### Decimals -/

section Decimals

variable {m n k : Nat} {q e : Int}

lemma isRounded_ofScientific (hn : 0 < n) (hupper : e ≤ 2048) (hlower : -(2048 + n.log2) ≤ e) :
    IsRounded (n * 10 ^ e) (UnpackedFloat.ofScientific .binary64 n e) := by
  have hbits : (2 : Int) ^ Format.binary64.exponentBits = 2048 := rfl
  rw [UnpackedFloat.ofScientific, dif_neg hn.ne', hbits, if_neg (by omega), if_neg (by omega)]
  by_cases hnonneg : 0 ≤ e
  · obtain ⟨k, rfl⟩ := Int.eq_ofNat_of_zero_le hnonneg
    have hvalue : (n : ℚ) * (10 : ℚ) ^ (k : Int) = ((n <<< 53 : Nat) : ℚ) * 2 ^ (-53 : Int)
        * ((10 ^ k : Nat) * 2 ^ (0 : Int)) := by
      rw [Nat.shiftLeft_eq, zpow_natCast, zpow_zero]
      push_cast
      norm_num
      ring
    rw [if_pos hnonneg, hvalue]
    apply isRounded_mul
    rw [Nat.shiftLeft_eq]
    calc 2 ^ 52
        ≤ n * 2 ^ 53 := by omega
      _ ≤ n * 2 ^ 53 * 10 ^ k := Nat.le_mul_of_pos_right _ (by positivity)
  · obtain ⟨k, hk⟩ : ∃ k : Nat, e = -k := ⟨(-e).toNat, by omega⟩
    subst hk
    have hvalue : (n : ℚ) * 10 ^ (-(k : Int))
        = n * 2 ^ (0 : Int) / ((10 ^ (- -(k : Int)).toNat : Nat) * 2 ^ (0 : Int)) := by
      rw [neg_neg, Int.toNat_natCast, zpow_neg, zpow_natCast, zpow_zero]
      push_cast
      field_simp
    rw [if_neg hnonneg, hvalue]
    exact isRounded_div _ _

/-- An integer that fits into a mantissa is a double. -/
lemma unpack_toFloat (hn : 0 < n) (hlt : n < 2 ^ 53) :
    n.toUInt64.toFloat.toModel.unpack
      = .finite .positive (n * 2 ^ (52 - n.log2)) (-(52 - n.log2 : Nat))
        (Nat.mul_pos hn (Nat.two_pow_pos _)) := by
  have hlog : n.log2 ≤ 52 := Nat.le_of_lt_succ ((Nat.log2_lt hn.ne').2 hlt)
  have hpow : 2 ^ n.log2 * 2 ^ (52 - n.log2) = 2 ^ 52 := by
    rw [← pow_add]
    congr 1
    omega
  have hcanonical : IsCanonical (n * 2 ^ (52 - n.log2)) (-(52 - n.log2 : Nat)) := by
    refine ⟨Nat.mul_pos hn (Nat.two_pow_pos _), ?_, by omega, by omega, .inl ?_⟩
    · have := Nat.mul_lt_mul_of_pos_right (Nat.lt_log2_self (n := n))
        (Nat.two_pow_pos (52 - n.log2))
      rw [pow_succ] at this
      linarith
    · rw [← hpow]
      exact Nat.mul_le_mul_right _ (Nat.log2_self_le hn.ne')
  have hround : UnpackedFloat.ofNat .binary64 n = .finite .positive (n * 2 ^ (52 - n.log2))
      (-(52 - n.log2 : Nat)) hcanonical.pos := by
    have hpos : compare (n : Int) 0 = .gt := compare_gt_iff_gt.2 (by omega)
    have hshift : (0 - max ((n.log2 : Int) + 0 - 52) (-1074)).toNat = 52 - n.log2 := by omega
    rw [UnpackedFloat.ofNat, UnpackedFloat.ofInt, UnpackedFloat.normalize, hpos]
    change UnpackedFloat.round .binary64 .positive n 0 = _
    rw [UnpackedFloat.round, targetExponent_eq, decreaseExponent]
    simp only [hshift]
    apply roundWithAccuracy_eq hcanonical (roundsTo_self _ _)
    · change _ = _
      rw [Nat.shiftLeft_eq, zero_sub]
      field_simp
    · have := hcanonical.log2_le
      have := (Nat.le_log2 hcanonical.pos.ne').2 (hcanonical.full.resolve_right (by omega))
      rw [Nat.shiftLeft_eq]
      omega
  have hword : n.toUInt64.toNat = n := UInt64.toNat_ofNat_of_lt' (by
    rw [UInt64.size]
    omega)
  change (Float.Model.pack (UnpackedFloat.ofNat .binary64 n.toUInt64.toNat)).unpack = _
  rw [hword, hround]
  exact unpack_pack hcanonical false

lemma parts_powerOfTen : ∀ k : Fin 23,
    parts (Float.exactlyRepresentablePowersOfTen[k])
      = .finite false (10 ^ k.val * 2 ^ 52 / 2 ^ (10 ^ k.val).log2) ((10 ^ k.val).log2 - 52) := by
  decide +kernel

lemma two_pow_log2_dvd : ∀ k : Fin 23, 2 ^ (10 ^ k.val).log2 ∣ 10 ^ k.val * 2 ^ 52 := by
  decide +kernel

/-- The powers of ten that are given are exact. -/
lemma exists_unpack_powerOfTen (hk : k < 23) :
    ∃ p a h, (Float.exactlyRepresentablePowersOfTen[k]).toModel.unpack
      = .finite .positive p a h ∧ (p : ℚ) * 2 ^ a = 10 ^ k ∧ 2 ^ 52 ≤ p := by
  have hparts := parts_powerOfTen ⟨k, hk⟩
  obtain ⟨p, hp⟩ := two_pow_log2_dvd ⟨k, hk⟩
  dsimp only at hparts hp
  rw [hp, Nat.mul_div_cancel_left _ (Nat.two_pow_pos _)] at hparts
  have hfull : 2 ^ 52 ≤ p := by
    have hle := Nat.mul_le_mul_right (2 ^ 52) (Nat.log2_self_le (n := 10 ^ k) (by positivity))
    rw [hp] at hle
    exact Nat.le_of_mul_le_mul_left hle (Nat.two_pow_pos _)
  have hcanonical := isCanonical_of_parts hparts (by omega)
  refine ⟨p, _, hcanonical.pos, unpack_of_parts hparts hcanonical, ?_, hfull⟩
  have hcast : (10 : ℚ) ^ k * 2 ^ 52 = 2 ^ (10 ^ k).log2 * p := by exact_mod_cast hp
  rw [zpow_sub₀ (by norm_num), zpow_natCast]
  change (p : ℚ) * (2 ^ (10 ^ k).log2 / 2 ^ 52) = 10 ^ k
  field_simp
  linarith

/-- The positive double of a mantissa and an exponent. -/
def ofCanonical (h : IsCanonical m q) : Float :=
  .ofModel (Float.Model.pack (.finite .positive m q h.pos))

section Reading

variable {x y : Float} {m₁ m₂ : Nat} {e₁ e₂ : Int} {h₁ : 0 < m₁} {h₂ : 0 < m₂}

/-- Doubles that come of rounding a positive number once. -/
inductive Rounds (v : ℚ) : Float → Prop where
  | intro {u : UnpackedFloat} (h : IsRounded v u) : Rounds v (.ofModel (Float.Model.pack u))

lemma Rounds.eq_ofCanonical {v : ℚ} (h : Rounds v x) (hcanonical : IsCanonical m q)
    (hrounds : RoundsTo m q v) : x = ofCanonical hcanonical := by
  cases h with
  | intro h =>
    rw [h.eq hcanonical hrounds]
    rfl

lemma rounds_mul (hx : x.toModel.unpack = .finite .positive m₁ e₁ h₁)
    (hy : y.toModel.unpack = .finite .positive m₂ e₂ h₂) (hwide : 2 ^ 52 ≤ m₁ * m₂) :
    Rounds (m₁ * 2 ^ e₁ * (m₂ * 2 ^ e₂)) (x * y) := by
  have hmul : Rounds (m₁ * 2 ^ e₁ * (m₂ * 2 ^ e₂)) _ := .intro (isRounded_mul h₁ h₂ hwide)
  rw [← hx, ← hy] at hmul
  exact hmul

lemma rounds_div (hx : x.toModel.unpack = .finite .positive m₁ e₁ h₁)
    (hy : y.toModel.unpack = .finite .positive m₂ e₂ h₂) :
    Rounds (m₁ * 2 ^ e₁ / (m₂ * 2 ^ e₂)) (x / y) := by
  have hdiv : Rounds (m₁ * 2 ^ e₁ / (m₂ * 2 ^ e₂)) _ := .intro (isRounded_div h₁ h₂)
  rw [← hx, ← hy] at hdiv
  exact hdiv

/-- Digits with an exponent are read by rounding their number once. -/
lemma rounds_ofScientific (hn : 0 < n) (negative : Bool)
    (hk : k ≤ 2048 + if negative then n.log2 else 0) :
    Rounds (n * 10 ^ (if negative then -(k : Int) else k)) (Float.ofScientific n negative k) := by
  have hwhole : (n : ℚ) = (n * 2 ^ (52 - n.log2) : Nat) * 2 ^ (-(52 - n.log2 : Nat) : Int) := by
    rw [zpow_neg, zpow_natCast]
    push_cast
    field_simp
  rw [Float.ofScientific]
  split_ifs with hnegative hfast hfast
  · obtain ⟨p, a, hp, hunpack, hvalue, hfull⟩ := exists_unpack_powerOfTen (k := k) (by omega)
    have hquotient := rounds_div (unpack_toFloat hn hfast.1) hunpack
    rwa [← hwhole, hvalue, div_eq_mul_inv, ← zpow_natCast, ← zpow_neg] at hquotient
  · rw [if_pos hnegative] at hk
    have hread := Rounds.intro (isRounded_ofScientific (e := -k) hn (by omega) (by omega))
    rw [Int.negOfNat_eq]
    exact hread
  · obtain ⟨p, a, hp, hunpack, hvalue, hfull⟩ := exists_unpack_powerOfTen (k := k) (by omega)
    have hproduct := rounds_mul (unpack_toFloat hn hfast.1) hunpack
      (hfull.trans (Nat.le_mul_of_pos_left _ (Nat.mul_pos hn (Nat.two_pow_pos _))))
    rwa [← hwhole, hvalue, ← zpow_natCast] at hproduct
  · rw [if_neg hnegative] at hk
    exact .intro (isRounded_ofScientific (e := k) hn (by omega) (by omega))

end Reading

lemma digitCount_pos (n : Nat) : 0 < digitCount n :=
  Nat.length_toDigits_pos

lemma lt_ten_pow_digitCount (n : Nat) : n < 10 ^ digitCount n :=
  (Nat.length_toDigits_le_iff (by norm_num) (digitCount_pos n)).1 le_rfl

lemma ten_pow_digitCount_le (hn : 0 < n) : 10 ^ (digitCount n - 1) ≤ n := by
  by_contra hlt
  have hpos : 0 < digitCount n - 1 := by
    apply Nat.pos_of_ne_zero
    intro hzero
    rw [hzero] at hlt
    omega
  have := (Nat.length_toDigits_le_iff (by norm_num) hpos).2 (not_le.1 hlt)
  have := digitCount_pos n
  rw [digitCount] at *
  omega

/-- What rounds to a double lies within the range of the doubles. -/
lemma RoundsTo.between {v : ℚ} (h : RoundsTo m q v) (hcanonical : IsCanonical m q) :
    (10 : ℚ) ^ (-324 : Int) < v ∧ v < 10 ^ (309 : Int) := by
  have hunit : (0 : ℚ) < 2 ^ q := by positivity
  have hm : (1 : ℚ) ≤ m := by exact_mod_cast hcanonical.pos
  have hlt : (m : ℚ) + 1 ≤ 2 ^ 53 := by exact_mod_cast hcanonical.lt
  have hlower := (le_div_iff₀ hunit).1 h.nearest.lower
  have hupper := (div_le_iff₀ hunit).1 h.nearest.upper
  have hleast : (2 : ℚ) ^ (-1074 : Int) ≤ 2 ^ q :=
    zpow_le_zpow_right₀ (by norm_num) hcanonical.least
  have hgreatest : (2 : ℚ) ^ q ≤ 2 ^ (971 : Int) :=
    zpow_le_zpow_right₀ (by norm_num) hcanonical.greatest
  have hfirst : (10 : ℚ) ^ (-324 : Int) < 1 / 2 * 2 ^ (-1074 : Int) := by
    have hlt : ((2 ^ 1075 : Nat) : ℚ) < (10 ^ 324 : Nat) := Nat.cast_lt.2 (by decide +kernel)
    rw [Nat.cast_pow, Nat.cast_pow] at hlt
    have hhalf : (1 / 2 : ℚ) * 2 ^ (-1074 : Int) = ((2 : ℚ) ^ 1075)⁻¹ := by
      rw [zpow_neg, pow_succ', mul_inv, one_div]
      rfl
    rw [hhalf]
    exact inv_strictAnti₀ (by positivity) hlt
  have hlast : (2 : ℚ) ^ 53 * 2 ^ (971 : Int) < 10 ^ (309 : Int) := by
    have hlt : ((2 ^ 53 * 2 ^ 971 : Nat) : ℚ) < (10 ^ 309 : Nat) :=
      Nat.cast_lt.2 (by decide +kernel)
    rw [Nat.cast_mul, Nat.cast_pow, Nat.cast_pow, Nat.cast_pow] at hlt
    exact hlt
  constructor
  · calc (10 : ℚ) ^ (-324 : Int)
        < 1 / 2 * 2 ^ (-1074 : Int) := hfirst
      _ ≤ 1 / 2 * 2 ^ q := by gcongr
      _ ≤ (m - 1 / 2) * 2 ^ q := by
        gcongr
        linarith
      _ ≤ v := hlower
  · calc v
        ≤ (m + 1 / 2) * 2 ^ q := hupper
      _ ≤ 2 ^ 53 * 2 ^ (971 : Int) := by
        gcongr
        linarith
      _ < 10 ^ (309 : Int) := hlast

/-- A decimal that begins within 400 places of the point is read by rounding it once. -/
lemma rounds_ofDecimal (hn : 0 < n) (hbefore : digitCount n + e ≤ 400)
    (hbehind : -400 ≤ digitCount n + e) : Rounds (n * 10 ^ e) (ofDecimal n e) := by
  have hpos := digitCount_pos n
  rw [ofDecimal, if_neg hn.ne', if_neg (by omega), if_neg (by omega)]
  split_ifs with hnonneg
  · have hread := rounds_ofScientific hn false (k := e.toNat) (by
      rw [if_neg Bool.false_ne_true]
      omega)
    rwa [if_neg Bool.false_ne_true, Int.toNat_of_nonneg hnonneg] at hread
  · -- each decimal digit takes a binary one at least
    have hlog : digitCount n - 1 ≤ n.log2 :=
      (Nat.le_log2 hn.ne').2
        ((Nat.pow_le_pow_left (by norm_num) _).trans (ten_pow_digitCount_le hn))
    have hread := rounds_ofScientific hn true (k := (-e).toNat) (by
      rw [if_pos rfl]
      omega)
    rwa [if_pos rfl, Int.toNat_of_nonneg (by omega), neg_neg] at hread

/-- Where a decimal lies, by the place at which it begins. -/
lemma ten_pow_le_decimal (hn : 0 < n) (e : Int) :
    (10 : ℚ) ^ ((digitCount n : Int) - 1 + e) ≤ n * 10 ^ e := by
  have hpos := digitCount_pos n
  have hle : (10 : ℚ) ^ (digitCount n - 1) ≤ n := by exact_mod_cast ten_pow_digitCount_le hn
  rw [zpow_add₀ (by norm_num), show (digitCount n : Int) - 1 = (digitCount n - 1 : Nat) by omega,
    zpow_natCast]
  exact mul_le_mul_of_nonneg_right hle (by positivity)

lemma decimal_lt_ten_pow (n : Nat) (e : Int) :
    (n : ℚ) * 10 ^ e < 10 ^ ((digitCount n : Int) + e) := by
  have hlt : (n : ℚ) < 10 ^ digitCount n := by exact_mod_cast lt_ten_pow_digitCount n
  rw [zpow_add₀ (by norm_num), zpow_natCast]
  exact mul_lt_mul_of_pos_right hlt (by positivity)

/-- A decimal is read as the double to which it rounds. -/
lemma ofDecimal_eq (h : IsCanonical m q) (hn : 0 < n) (hrounds : RoundsTo m q (n * 10 ^ e)) :
    ofDecimal n e = ofCanonical h := by
  obtain ⟨hlower, hupper⟩ := hrounds.between h
  have hmono : ∀ a b : Int, (10 : ℚ) ^ a < 10 ^ b → a < b := fun a b =>
    (zpow_lt_zpow_iff_right₀ (by norm_num)).1
  have hbefore := hmono _ _ ((ten_pow_le_decimal hn e).trans_lt hupper)
  have hbehind := hmono _ _ (hlower.trans (decimal_lt_ten_pow n e))
  exact (rounds_ofDecimal hn (by omega) (by omega)).eq_ofCanonical h hrounds

/-- A decimal with a sign is read as the double of that sign to which it rounds. -/
theorem withSign_ofDecimal {x : Float} {negative : Bool} (h : parts x = .finite negative m q)
    (hm : m ≠ 0) (hn : 0 < n) (hrounds : RoundsTo m q (n * 10 ^ e)) :
    withSign negative (ofDecimal n e) = x := by
  have hcanonical := isCanonical_of_parts h hm
  rw [ofDecimal_eq hcanonical hn hrounds, ← ofModel_pack_of_parts h hcanonical]
  cases negative with
  | false => rfl
  | true =>
    change Float.ofModel (Float.Model.pack
      (Float.Model.pack (.finite (signOf false) m q hcanonical.pos)).unpack.neg) = _
    rw [unpack_pack hcanonical]
    rfl

/-- A zero is read as the zero of its sign. -/
theorem withSign_zero {x : Float} {negative : Bool} (h : parts x = .finite negative 0 q) :
    withSign negative 0 = x := by
  apply eq_of_toBits
  apply UInt64.toNat.inj
  have hsmall : ¬0x10000000000000 ≤ 0 := by norm_num
  simp only [toNat_of_parts h, hsmall, if_false]
  cases negative <;> decide +kernel

end Decimals

end Workflow.Double
