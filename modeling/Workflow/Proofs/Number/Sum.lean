import Workflow.Proofs.Number.Decimal
import Workflow.Proofs.Number.Grid

/-!
# Sums of doubles

The sum of two doubles is rounded to a double nearest to it, on the grid of the place at which the
sum begins. So coordinates that are rounded to one integer lie within one unit of each other, and
coordinates within one unit are nearby, as their difference is rounded to one unit at most.
-/

namespace Workflow.Double

open Float.Model Float.Model.UnpackedFloat

/-! ### The value of a double -/

/-- The number that an unpacked double stands for, if it is finite. -/
def valueOf : UnpackedFloat → ℚ
  | .finite sign m q _ => sign.apply m * 2 ^ q
  | _ => 0

/-- The exponent of an unpacked double; that of a zero is the least. -/
def exponentOf : UnpackedFloat → Int
  | .finite _ _ q _ => q
  | _ => -1074

/-- The number that a double stands for, if it is finite. -/
def toRat (x : Float) : ℚ :=
  valueOf x.toModel.unpack

/-- An unpacked double as it is unpacked from a finite one. -/
inductive Canonical : UnpackedFloat → Prop where
  | zero (sign : Sign) : Canonical (.zero sign)
  | finite (sign : Sign) {m : Nat} {q : Int} (h : IsCanonical m q) :
      Canonical (.finite sign m q h.pos)

section Canonical

variable {u w : UnpackedFloat} {x : Float}

lemma exists_signOf (sign : Sign) : ∃ negative, sign = signOf negative := by
  cases sign with
  | negative => exact ⟨true, rfl⟩
  | positive => exact ⟨false, rfl⟩

lemma Canonical.unpack_pack (h : Canonical u) : (Float.Model.pack u).unpack = u := by
  cases h with
  | zero sign => cases sign <;> rfl
  | finite sign h =>
    obtain ⟨negative, rfl⟩ := exists_signOf sign
    exact Double.unpack_pack h negative

lemma exists_parts (h : isFinite x = true) : ∃ negative m q, parts x = .finite negative m q := by
  rw [isFinite] at h
  split at h
  · exact ⟨_, _, _, ‹_›⟩
  · cases h

lemma unpack_of_parts_zero {negative : Bool} {q : Int} (h : parts x = .finite negative 0 q) :
    x.toModel.unpack = .zero (signOf negative) := by
  rw [← withSign_zero h]
  cases negative <;> rfl

lemma canonical_unpack (h : isFinite x = true) : Canonical x.toModel.unpack := by
  obtain ⟨negative, m, q, hparts⟩ := exists_parts h
  by_cases hm : m = 0
  · subst hm
    rw [unpack_of_parts_zero hparts]
    exact .zero _
  · have hcanonical := isCanonical_of_parts hparts hm
    rw [unpack_of_parts hparts hcanonical]
    exact .finite _ hcanonical

lemma apply_signOf (negative : Bool) (n : Nat) : (signOf negative).apply n = signed negative n := by
  cases negative <;> rfl

lemma toRat_of_parts {negative : Bool} {m : Nat} {q : Int} (h : parts x = .finite negative m q) :
    toRat x = signed negative m * 2 ^ q := by
  by_cases hm : m = 0
  · subst hm
    rw [toRat, unpack_of_parts_zero h]
    cases negative <;> simp [valueOf, signed]
  · rw [toRat, unpack_of_parts h (isCanonical_of_parts h hm), valueOf, apply_signOf]

/-- A finite double is rounded down by the floor of its value. -/
lemma floor_eq (h : isFinite x = true) : floor x = .ok ⌊toRat x⌋ := by
  obtain ⟨negative, m, q, hparts⟩ := exists_parts h
  rw [toRat_of_parts hparts, floor, hparts]
  dsimp only
  split_ifs with hq
  · obtain ⟨k, rfl⟩ := Int.eq_ofNat_of_zero_le hq
    have hvalue : (signed negative m : ℚ) * 2 ^ (k : Int)
        = ((signed negative (m * Nat.pow 2 k) : Int) : ℚ) := by
      rw [zpow_natCast]
      cases negative <;> simp [signed]
    rw [hvalue, Int.floor_intCast, Int.toNat_natCast]
  · obtain ⟨k, rfl⟩ : ∃ k : Nat, q = -k := ⟨(-q).toNat, by omega⟩
    have hvalue : (signed negative m : ℚ) * 2 ^ (-k : Int)
        = (signed negative m : ℚ) / ((Nat.pow 2 k : Nat) : ℚ) := by
      rw [zpow_neg, zpow_natCast, div_eq_mul_inv]
      simp
    rw [hvalue, Rat.floor_intCast_div_natCast, neg_neg, Int.toNat_natCast,
      Int.fdiv_eq_ediv_of_nonneg _ (Int.natCast_nonneg _)]

lemma abs_apply (sign : Sign) (n : Int) : |sign.apply n| = |n| := by
  cases sign with
  | negative => exact abs_neg n
  | positive => rfl

lemma isRounding_zero : IsRounding 0 0 (-1074) where
  least := le_rfl
  grid := ⟨0, by simp⟩
  near := by
    rw [sub_self, abs_zero]
    positivity
  place := .inr rfl
  below := by rw [abs_zero]; positivity

/-- A double is rounded to itself. -/
lemma Canonical.isRounding (h : Canonical u) :
    IsRounding (valueOf u) (valueOf u) (exponentOf u) := by
  cases h with
  | zero sign => exact isRounding_zero
  | @finite sign m q h =>
    have hunit : (0 : ℚ) < 2 ^ q := by positivity
    have habs : |(sign.apply m * 2 ^ q : ℚ)| = m * 2 ^ q := by
      rw [abs_mul, abs_of_pos hunit, ← Int.cast_abs, abs_apply]
      simp
    have hpow : ∀ n : Nat, (2 : ℚ) ^ (n + q) = 2 ^ n * 2 ^ q := fun n => by
      rw [zpow_add₀ (by norm_num), zpow_natCast]
    have hlt : (m : ℚ) < 2 ^ 53 := by exact_mod_cast h.lt
    refine ⟨h.least, ⟨_, rfl⟩, ?_, ?_, ?_⟩
    · rw [sub_self, abs_zero]
      exact (half_pos hunit).le
    · refine h.full.imp (fun hfull => ?_) id
      have hfull : (2 ^ 52 : ℚ) ≤ m := by exact_mod_cast hfull
      change (2 : ℚ) ^ ((52 : Nat) + q) ≤ |(sign.apply m * 2 ^ q : ℚ)|
      rw [habs, hpow]
      exact mul_le_mul_of_nonneg_right hfull hunit.le
    · change |(sign.apply m * 2 ^ q : ℚ)| < (2 : ℚ) ^ ((53 : Nat) + q)
      rw [habs, hpow]
      exact mul_lt_mul_of_pos_right hlt hunit

end Canonical

/-! ### Sums -/

/-- An unpacked double to which a number is rounded; with no exponent too great it is canonical. -/
structure Rounded (v : ℚ) (u : UnpackedFloat) (t : Int) : Prop where
  rounding : IsRounding v (valueOf u) t
  exponent_le : exponentOf u ≤ t + 1
  canonical : exponentOf u ≤ 971 → Canonical u

section Sums

variable {u w : UnpackedFloat} {v : ℚ} {mantissa : Nat} {e : Int}

lemma Canonical.rounded (h : Canonical u) : Rounded (valueOf u) u (exponentOf u) :=
  ⟨h.isRounding, by omega, fun _ => h⟩

/-- What a mantissa comes to is rounded to if its value is nearest. -/
lemma ComesTo.rounded {r : Nat} {t : Int} {sign : Sign} (hu : ComesTo sign r t u)
    (hleast : -1074 ≤ t) (hr_ge : t ≠ -1074 → 2 ^ 52 ≤ r)
    (h : IsRounding v (sign.apply r * 2 ^ t) t) : Rounded v u t := by
  cases hu with
  | zero hzero =>
    have hvalue : (sign.apply r * 2 ^ t : ℚ) = 0 := by
      rw [hzero]
      cases sign <;> simp [Sign.apply]
    rw [hvalue] at h
    exact ⟨h, (by omega : (-1074 : Int) ≤ t + 1), fun _ => .zero sign⟩
  | finite hpos hlt =>
    refine ⟨h, (by omega : t ≤ t + 1), fun hle => ?_⟩
    have hle : t ≤ 971 := hle
    exact .finite sign ⟨hpos, hlt, hleast, hle, or_iff_not_imp_right.2 hr_ge⟩
  | power hpower =>
    have hvalue : (sign.apply r * 2 ^ t : ℚ) = sign.apply (2 ^ 52 : Nat) * 2 ^ (t + 1) := by
      rw [hpower, zpow_add_one₀ (by norm_num)]
      cases sign <;> simp only [Sign.apply] <;> push_cast <;> ring
    rw [hvalue] at h
    refine ⟨h, le_rfl, fun hle => ?_⟩
    have hle : t + 1 ≤ 971 := hle
    exact .finite sign ⟨by norm_num, by norm_num, by omega, hle, .inl le_rfl⟩

lemma IsNearest.isRounding {r : Nat} {t : Int} (hr : IsNearest r (v / 2 ^ t)) (hv : 0 ≤ v)
    (hleast : -1074 ≤ t) (hplace : t ≠ -1074 → 2 ^ (52 + t) ≤ v) (hbelow : v < 2 ^ (53 + t))
    (sign : Sign) : IsRounding (sign.apply 1 * v) (sign.apply r * 2 ^ t) t := by
  have hunit : (0 : ℚ) < 2 ^ t := by positivity
  have habs : |(sign.apply 1 * v : ℚ)| = v := by
    rw [abs_mul, ← Int.cast_abs, abs_apply, abs_one, Int.cast_one, one_mul, abs_of_nonneg hv]
  refine ⟨hleast, ⟨_, rfl⟩, ?_, ?_, ?_⟩
  · have hnear : |(r : ℚ) * 2 ^ t - v| ≤ 2 ^ t / 2 := by
      have hlower := hr.lower
      have hupper := hr.upper
      rw [le_div_iff₀ hunit] at hlower
      rw [div_le_iff₀ hunit] at hupper
      rw [abs_le]
      constructor <;> linarith
    cases sign with
    | positive => simpa [Sign.apply] using hnear
    | negative =>
      rw [← abs_neg] at hnear
      convert hnear using 2
      simp only [Sign.apply]
      push_cast
      ring
  · rw [habs]
    exact or_iff_not_imp_right.2 hplace
  · rw [habs]
    exact hbelow

/-- What is rounded is a double nearest to the number. -/
lemma exists_rounded_roundWithAccuracy (sign : Sign) (hpos : 0 < mantissa)
    (he : e ≤ max ((mantissa.log2 : Int) + e - 52) (-1074)) :
    ∃ t, Rounded (sign.apply 1 * (mantissa * 2 ^ e))
      (roundWithAccuracy .binary64 sign mantissa e .exact) t := by
  obtain ⟨t, ht⟩ : ∃ t, max ((mantissa.log2 : Int) + e - 52) (-1074) = t := ⟨_, rfl⟩
  have hexact : Approximates mantissa ((mantissa : ℚ) * 2 ^ e / 2 ^ e) .exact := by
    change _ = _
    field_simp
  obtain ⟨hplace, hbelow⟩ := hexact.place ht (ht ▸ he)
  obtain ⟨r, hr⟩ : ∃ r, IsNearest r ((mantissa : ℚ) * 2 ^ e / 2 ^ t) :=
    exists_isNearest (by positivity)
  obtain ⟨hr_le, hr_ge⟩ := hr.bounds hplace hbelow
  exact ⟨t, (comesTo_roundWithAccuracy hexact ht (ht ▸ he) hr hr_le sign).rounded (by omega) hr_ge
    (hr.isRounding (by positivity) (by omega) hplace hbelow sign)⟩

lemma log2_mul_two_pow {n : Nat} (hn : n ≠ 0) (k : Nat) : (n * 2 ^ k).log2 = n.log2 + k := by
  induction k with
  | zero => simp
  | succ k ih =>
    rw [pow_succ', Nat.mul_left_comm, Nat.log2_two_mul (by positivity), ih, Nat.add_assoc]

lemma exists_rounded_round (sign : Sign) (hpos : 0 < mantissa) (e : Int) :
    ∃ t, Rounded (sign.apply 1 * (mantissa * 2 ^ e))
      (UnpackedFloat.round .binary64 sign mantissa e) t := by
  rw [UnpackedFloat.round, targetExponent_eq, decreaseExponent]
  generalize hk : (e - max ((mantissa.log2 : Int) + e - 52) (-1074)).toNat = k
  have hlog : (mantissa <<< k).log2 = mantissa.log2 + k := by
    rw [Nat.shiftLeft_eq, log2_mul_two_pow hpos.ne']
  have hshifted : 0 < mantissa <<< k := by
    rw [Nat.shiftLeft_eq]
    positivity
  obtain ⟨t, ht⟩ := exists_rounded_roundWithAccuracy (e := e - k) sign hshifted
    (by rw [hlog]; push_cast; omega)
  refine ⟨t, ?_⟩
  convert ht using 2
  rw [Nat.shiftLeft_eq, zpow_sub₀ (by norm_num), zpow_natCast]
  push_cast
  field_simp

lemma exists_rounded_normalize (mantissa : Int) (e : Int) (sign : Sign) :
    ∃ t, Rounded (mantissa * 2 ^ e) (UnpackedFloat.normalize .binary64 mantissa e sign) t := by
  rw [UnpackedFloat.normalize]
  split
  · next hneg =>
    have hlt : mantissa < 0 := compare_lt_iff_lt.1 hneg
    obtain ⟨t, ht⟩ := exists_rounded_round .negative (by omega : 0 < (-mantissa).toNat) e
    have hvalue : (mantissa : ℚ) = -((-mantissa).toNat : ℚ) := by
      rw [eq_neg_iff_add_eq_zero]
      exact_mod_cast (by omega : mantissa + (-mantissa).toNat = 0)
    refine ⟨t, ?_⟩
    convert ht using 1
    rw [hvalue]
    simp [Sign.apply]
  · next hzero =>
    obtain rfl : mantissa = 0 := compare_eq_iff_eq.1 hzero
    rw [Int.cast_zero, zero_mul]
    exact ⟨_, (Canonical.zero sign).rounded⟩
  · next hgt =>
    have hlt : 0 < mantissa := compare_gt_iff_gt.1 hgt
    obtain ⟨t, ht⟩ := exists_rounded_round .positive (by omega : 0 < mantissa.toNat) e
    have hvalue : (mantissa : ℚ) = (mantissa.toNat : ℚ) := by
      exact_mod_cast (by omega : mantissa = mantissa.toNat)
    refine ⟨t, ?_⟩
    convert ht using 1
    rw [hvalue]
    simp [Sign.apply]

/-- A sum is rounded to a double nearest to it. -/
lemma Canonical.exists_rounded_add (hu : Canonical u) (hw : Canonical w) :
    ∃ t, Rounded (valueOf u + valueOf w) (UnpackedFloat.add .binary64 u w) t := by
  cases hu with
  | zero sign =>
    cases hw with
    | zero sign' =>
      refine ⟨-1074, ?_⟩
      have hzero : ∀ s, Rounded 0 (.zero s) (-1074) := fun s => (Canonical.zero s).rounded
      simp only [valueOf, UnpackedFloat.add, add_zero]
      split_ifs <;> exact hzero _
    | finite sign' h =>
      have hvalue : valueOf (.zero sign) = 0 := rfl
      rw [hvalue, zero_add]
      exact ⟨_, (Canonical.finite sign' h).rounded⟩
  | @finite sign m q h =>
    cases hw with
    | zero sign' =>
      have hvalue : valueOf (.zero sign') = 0 := rfl
      rw [hvalue, add_zero]
      exact ⟨_, (Canonical.finite sign h).rounded⟩
    | @finite sign' m' q' h' =>
      have hvalue : (valueOf (.finite sign m q h.pos) + valueOf (.finite sign' m' q' h'.pos) : ℚ)
          = ((sign.apply (m <<< (q - min q q').toNat : Nat)
            + sign'.apply (m' <<< (q' - min q q').toNat : Nat) : Int) : ℚ) * 2 ^ min q q' := by
        have hshift : ∀ (s : Sign) (n : Nat) (p : Int), min q q' ≤ p →
            ((s.apply (n <<< (p - min q q').toNat : Nat) : Int) : ℚ) * 2 ^ min q q'
              = s.apply n * 2 ^ p := by
          intro s n p hp
          obtain ⟨d, hd⟩ : ∃ d : Nat, p = min q q' + d := ⟨(p - min q q').toNat, by omega⟩
          have hd' : (p - min q q').toNat = d := by omega
          rw [hd', Nat.shiftLeft_eq]
          conv_rhs => rw [hd, zpow_add₀ (by norm_num), zpow_natCast]
          cases s <;> simp only [Sign.apply] <;> push_cast <;> ring
        rw [Int.cast_add, add_mul, hshift _ _ _ (min_le_left q q'),
          hshift _ _ _ (min_le_right q q')]
        rfl
      rw [hvalue]
      exact exists_rounded_normalize _ _ _

lemma valueOf_neg (u : UnpackedFloat) : valueOf (UnpackedFloat.neg u) = -valueOf u := by
  cases u with
  | finite sign m q h =>
    have hflip : (-sign).apply m = -sign.apply m := by
      cases sign with
      | negative => exact (neg_neg _).symm
      | positive => rfl
    rw [UnpackedFloat.neg, valueOf, valueOf, hflip]
    push_cast
    ring
  | _ => simp [valueOf, UnpackedFloat.neg]

lemma Canonical.neg (h : Canonical u) : Canonical (UnpackedFloat.neg u) := by
  cases h with
  | zero sign => exact .zero _
  | finite sign h => exact .finite _ h

/-- A difference is the sum with the negative. -/
lemma unpackedSub_eq (u w : UnpackedFloat) :
    UnpackedFloat.sub .binary64 u w = UnpackedFloat.add .binary64 u (UnpackedFloat.neg w) := by
  cases u <;> cases w <;> try rfl
  next s m q h s' m' q' h' =>
    cases s' with
    | negative =>
      exact congrArg (UnpackedFloat.normalize .binary64 · _ .positive) (Int.sub_neg _ _)
    | positive => rfl

end Sums

/-! ### Coordinates -/

/-- One half more than a finite double is rounded to a double nearest to it. -/
lemma exists_isRounding_add_half {x : Float} (h : isFinite x = true) :
    ∃ t, IsRounding (toRat x + 1 / 2) (toRat (x + 0.5)) t := by
  have hhalf : Canonical (0.5 : Float).toModel.unpack := canonical_unpack (by decide +kernel)
  have hvalue : valueOf (0.5 : Float).toModel.unpack = 1 / 2 := by
    rw [unpack_half]
    norm_num [valueOf, Sign.apply]
  obtain ⟨t, ht⟩ := (canonical_unpack h).exists_rounded_add hhalf
  have hexponent : exponentOf
      (UnpackedFloat.add .binary64 x.toModel.unpack (0.5 : Float).toModel.unpack) ≤ 971 := by
    have hrange := (inRange_unpack h).add_half
    generalize UnpackedFloat.add .binary64 x.toModel.unpack (0.5 : Float).toModel.unpack = sum
      at hrange
    cases hrange with
    | zero sign => exact (by norm_num : (-1074 : Int) ≤ 971)
    | finite sign h hmantissa hexponent => exact hexponent
  have hsum : toRat (x + 0.5) = valueOf
      (UnpackedFloat.add .binary64 x.toModel.unpack (0.5 : Float).toModel.unpack) :=
    congrArg valueOf (ht.canonical hexponent).unpack_pack
  rw [hsum, ← hvalue]
  exact ⟨t, ht.rounding⟩

lemma exists_floor_add_half {x : Float} {n : Int} (h : roundHalfUp x = .ok n) :
    ∃ q t f, IsRounding (toRat x) (toRat x) q ∧ IsRounding (toRat x + 1 / 2) f t ∧ ⌊f⌋ = n := by
  have hx : isFinite x = true := exists_roundHalfUp_iff.1 ⟨n, h⟩
  obtain ⟨t, ht⟩ := exists_isRounding_add_half hx
  have hsum : isFinite (x + 0.5) = true := exists_floor_iff.1 ⟨n, h⟩
  rw [roundHalfUp, floor_eq hsum] at h
  exact ⟨_, t, _, (canonical_unpack hx).isRounding, ht, Except.ok.inj h⟩

/-- Coordinates that are rounded to one integer lie within one unit. -/
theorem abs_sub_le_one_of_roundHalfUp {a b : Float} {n : Int} (ha : roundHalfUp a = .ok n)
    (hb : roundHalfUp b = .ok n) : |toRat a - toRat b| ≤ 1 := by
  obtain ⟨_, _, _, hqa, hta, hfa⟩ := exists_floor_add_half ha
  obtain ⟨_, _, _, hqb, htb, hfb⟩ := exists_floor_add_half hb
  have hab := sub_le_one_of_floor_eq hqa hqb hta htb (hfa.trans hfb.symm)
  have hba := sub_le_one_of_floor_eq hqb hqa htb hta (hfb.trans hfa.symm)
  rw [abs_le]
  constructor <;> linarith

lemma unpack_one :
    (1.0 : Float).toModel.unpack = .finite .positive (2 ^ 52) (-52) (by norm_num) :=
  rfl

lemma Canonical.abs {u : UnpackedFloat} (h : Canonical u) : Canonical (UnpackedFloat.abs u) := by
  cases h with
  | zero sign => exact .zero _
  | finite sign h => exact .finite _ h

/-- No double of a value up to one is greater than one. -/
lemma Canonical.not_one_lt {u : UnpackedFloat} (h : Canonical u) (hle : |valueOf u| ≤ 1) :
    UnpackedFloat.lt (1.0 : Float).toModel.unpack (UnpackedFloat.abs u) = false := by
  rw [unpack_one]
  cases h with
  | zero sign => rfl
  | @finite sign m q h =>
    have hunit : (0 : ℚ) < 2 ^ q := by positivity
    have hvalue : (m : ℚ) * 2 ^ q ≤ 1 := by
      rw [valueOf, abs_mul, abs_of_pos hunit, ← Int.cast_abs, abs_apply] at hle
      simpa using hle
    have hq : q ≤ -52 := by
      by_contra hgt
      have hfull : (2 ^ 52 : ℚ) ≤ m := by exact_mod_cast h.full.resolve_right (by omega)
      have hstep : (2 : ℚ) ^ (-51 : Int) ≤ 2 ^ q := two_zpow_le.2 (by omega)
      have : (2 ^ 52 : ℚ) * 2 ^ (-51 : Int) ≤ m * 2 ^ q := by gcongr
      norm_num at this
      linarith
    have hm : q = -52 → m ≤ 2 ^ 52 := by
      rintro rfl
      rw [zpow_neg, ← div_eq_mul_inv, div_le_one (by positivity)] at hvalue
      exact_mod_cast hvalue
    simp only [UnpackedFloat.lt, UnpackedFloat.abs, UnpackedFloat.compare]
    rcases hq.lt_or_eq with hlt | rfl
    · rw [compare_gt_iff_gt.2 hlt]
      rfl
    · rcases (hm rfl).lt_or_eq with hlt | heq
      · rw [compare_eq_iff_eq.2 rfl, compare_gt_iff_gt.2 hlt]
        rfl
      · rw [compare_eq_iff_eq.2 rfl, compare_eq_iff_eq.2 heq.symm]
        rfl

/-- Coordinates within one unit are nearby; their difference is rounded to one unit at most. -/
theorem nearby_of_abs_sub_le {a b : Float} (ha : isFinite a = true) (hb : isFinite b = true)
    (h : |toRat a - toRat b| ≤ 1) : nearby a b = true := by
  obtain ⟨t, ht⟩ := (canonical_unpack ha).exists_rounded_add (canonical_unpack hb).neg
  rw [← unpackedSub_eq, valueOf_neg, ← sub_eq_add_neg] at ht
  have hplace : t ≤ -52 := by
    rcases ht.rounding.place with hplace | hleast
    · have := two_zpow_le.1 (hplace.trans (h.trans (zpow_zero (2 : ℚ)).ge))
      omega
    · omega
  have hone : OnGrid t 1 := by simpa using onGrid_intCast (t := t) 1 (by omega)
  have hle : |valueOf (UnpackedFloat.sub .binary64 a.toModel.unpack b.toModel.unpack)| ≤ 1 := by
    obtain ⟨hlower, hupper⟩ := abs_le.1 h
    have hneg : OnGrid t (-1) := by simpa using onGrid_intCast (t := t) (-1) (by omega)
    exact abs_le.2 ⟨ht.rounding.le_of_onGrid hneg hlower, ht.rounding.ge_of_onGrid hone hupper⟩
  have hcanonical := ht.canonical (by have := ht.exponent_le; omega)
  have hdiff : (a - b).abs.toModel.unpack
      = UnpackedFloat.abs (UnpackedFloat.sub .binary64 a.toModel.unpack b.toModel.unpack) := by
    change (Float.Model.pack (UnpackedFloat.abs (Float.Model.pack _).unpack)).unpack = _
    rw [hcanonical.unpack_pack, hcanonical.abs.unpack_pack]
  have hnot : ¬positionTolerance < (a - b).abs := by
    intro hlt
    have hlt : UnpackedFloat.lt (1.0 : Float).toModel.unpack (a - b).abs.toModel.unpack = true :=
      of_decide_eq_true hlt
    rw [hdiff, hcanonical.not_one_lt hle] at hlt
    cases hlt
  simp [nearby, hnot]

end Workflow.Double
