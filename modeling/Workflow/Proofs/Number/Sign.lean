import Mathlib
import Workflow.Timer.Clock

/-!
# Delays are not negative

A number of seconds that is not negative makes a delay that is not negative: taken a thousand times
it keeps its sign, and so does the nearest integer.
-/

namespace Workflow

namespace Double

open Float.Model Float.Model.UnpackedFloat

/-! ### Signs -/

/-- An unpacked double that is not negative; a zero may have either sign. -/
inductive NotNegative : UnpackedFloat → Prop where
  | zero (sign : Sign) : NotNegative (.zero sign)
  | finite {mantissa : Nat} {exponent : Int} (h : 0 < mantissa) :
      NotNegative (.finite .positive mantissa exponent h)
  | infinity : NotNegative (.infinity .positive)

lemma notNegative_unpack {x : Float} (h : 0 ≤ x) : NotNegative x.toModel.unpack := by
  have hle : UnpackedFloat.le (.zero .positive) x.toModel.unpack = true := of_decide_eq_true h
  cases hx : x.toModel.unpack with
  | notANumber => simp [hx, UnpackedFloat.le, UnpackedFloat.compare] at hle
  | zero sign => exact .zero sign
  | infinity sign =>
    cases sign with
    | positive => exact .infinity
    | negative => simp [hx, UnpackedFloat.le, UnpackedFloat.compare] at hle
  | finite sign mantissa exponent h =>
    cases sign with
    | positive => exact .finite h
    | negative => simp [hx, UnpackedFloat.le, UnpackedFloat.compare] at hle

lemma unpack_thousand :
    (1000 : Float).toModel.unpack = .finite .positive (1000 * 2 ^ 43) (-43) (by norm_num) :=
  rfl

lemma NotNegative.mul_thousand {u : UnpackedFloat} (h : NotNegative u) :
    NotNegative (UnpackedFloat.mul .binary64 u (1000 : Float).toModel.unpack) := by
  rw [unpack_thousand]
  cases h with
  | zero sign => exact .zero _
  | infinity => exact .infinity
  | finite h =>
    rw [UnpackedFloat.mul, roundWithAccuracy]
    dsimp only
    split_ifs
    · exact .zero _
    · exact .finite _

/-- Without a sign the first bit is zero. -/
lemma toNat_packComponents_lt (exponent : BitVec 11) (mantissa : BitVec 52) :
    (packComponents .binary64 .positive exponent mantissa).toNat < 0x8000000000000000 := by
  change (0#1 ++ exponent ++ mantissa).toNat < 2 ^ 63
  rw [BitVec.toNat_append, BitVec.toNat_append]
  apply Nat.or_lt_two_pow
  · have hexponent := exponent.isLt
    simp only [BitVec.toNat_ofNat, Nat.zero_mod, Nat.shiftLeft_eq, Nat.zero_mul, Nat.zero_or]
    omega
  · exact mantissa.isLt.trans (by norm_num)

lemma parts_ne_of_lt {x : Float} (h : x.toBits.toNat < 0x8000000000000000) (mantissa : Nat)
    (exponent : Int) : parts x ≠ .finite true mantissa exponent := by
  simp only [parts, decide_eq_false (not_le.2 h)]
  split_ifs <;> simp

lemma nearestQuotient_nonneg {n : Int} (h : 0 ≤ n) (d : Nat) : 0 ≤ nearestQuotient n d := by
  have hbelow : 0 ≤ Int.fdiv n d := Int.fdiv_nonneg h (Int.natCast_nonneg d)
  simp only [nearestQuotient]
  split_ifs <;> omega

/-- A double is rounded to an integer that is not negative if it has no sign or is a zero. -/
lemma nearestInt_nonneg {x : Float} {n : Int} (hn : nearestInt x = .ok n)
    (h : ∀ mantissa exponent, parts x = .finite true mantissa exponent → mantissa = 0) :
    0 ≤ n := by
  rw [nearestInt] at hn
  cases hx : parts x with
  | nan => simp [hx] at hn
  | infinite negative => simp [hx] at hn
  | finite negative mantissa exponent =>
    -- a sign does no harm to a zero
    have hsigned : ∀ k, 0 ≤ signed negative (mantissa * k) := by
      intro k
      cases negative with
      | false => exact Int.natCast_nonneg _
      | true => simp [h mantissa exponent hx, signed]
    simp only [hx] at hn
    split_ifs at hn
    · exact Except.ok.inj hn ▸ hsigned _
    · exact Except.ok.inj hn ▸ nearestQuotient_nonneg (by simpa using hsigned 1) _

/-- What is not negative has no sign, unless it is a zero. -/
lemma NotNegative.parts_pack {u : UnpackedFloat} (h : NotNegative u) {mantissa : Nat}
    {exponent : Int}
    (hu : parts (.ofModel (Float.Model.pack u)) = .finite true mantissa exponent) :
    mantissa = 0 := by
  cases h with
  | zero sign =>
    have hzero : ∃ negative, parts (.ofModel (Float.Model.pack (.zero sign)))
        = .finite negative 0 (-1074) := by
      cases sign with
      | positive => exact ⟨false, rfl⟩
      | negative => exact ⟨true, rfl⟩
    obtain ⟨negative, hzero⟩ := hzero
    exact (DoubleParts.finite.inj (hzero.symm.trans hu)).2.1.symm
  | infinity => cases hu
  | @finite mantissa' exponent' h =>
    have hbits : (Float.ofModel (Float.Model.pack
        (.finite .positive mantissa' exponent' h))).toBits.toNat < 0x8000000000000000 := by
      change (UnpackedFloat.pack .binary64 (.finite .positive mantissa' exponent' h)).toNat < _
      rw [UnpackedFloat.pack]
      dsimp only
      split_ifs <;> exact toNat_packComponents_lt _ _
    exact absurd hu (parts_ne_of_lt hbits mantissa exponent)

end Double

/-- A number of seconds that is not negative makes a delay that is not negative. -/
theorem Delay.ofSeconds_nonneg {seconds : Float} (h : 0 ≤ seconds) {delay : Int}
    (hdelay : Delay.ofSeconds seconds = .finite delay) : 0 ≤ delay := by
  rw [Delay.ofSeconds] at hdelay
  cases hspan : Double.nearestInt (seconds * 1000) with
  | ok span =>
    rw [hspan] at hdelay
    obtain rfl := Delay.finite.inj hdelay
    exact Double.nearestInt_nonneg hspan fun _ _ =>
      (Double.notNegative_unpack h).mul_thousand.parts_pack
  | error reason =>
    rw [hspan] at hdelay
    dsimp only at hdelay
    split_ifs at hdelay
    exact (Delay.finite.inj hdelay).le

end Workflow
