import Workflow.Number.Shortest
import Workflow.Proofs.Number.Decimal

/-!
# Shortest decimals round to their doubles

The grids on which the shortest decimal is searched for become finer until one of them has a point
in the neighbourhood of the double. The last grid is finer than the neighbourhood is wide, so that
the search does not end without one.
-/

namespace Workflow.Decimal

open Double

/-- The number that a decimal stands for. -/
def toRat (d : Decimal) : ℚ :=
  d.digits * 10 ^ d.exponent

namespace Neighbourhood

/-- The number in the middle. -/
def center (N : Neighbourhood) : ℚ :=
  N.middle / N.unit

/-- Whether a number lies between the two ends, which may belong to what is between. -/
def Contains (N : Neighbourhood) (v : ℚ) : Prop :=
  if N.closed then (N.low : ℚ) / N.unit ≤ v ∧ v ≤ N.high / N.unit
  else (N.low : ℚ) / N.unit < v ∧ v < N.high / N.unit

section Contains

variable {N : Neighbourhood} {v w : ℚ}

lemma Contains.le (h : N.Contains v) : (N.low : ℚ) / N.unit ≤ v ∧ v ≤ N.high / N.unit := by
  rw [Contains] at h
  split_ifs at h
  · exact h
  · exact ⟨h.1.le, h.2.le⟩

/-- There is no gap below what lies in the neighbourhood. -/
lemma Contains.of_le (h : N.Contains w) (hlow : (N.low : ℚ) / N.unit < v) (hv : v ≤ w) :
    N.Contains v := by
  rw [Contains] at h ⊢
  split_ifs at h ⊢
  · exact ⟨hlow.le, hv.trans h.2⟩
  · exact ⟨hlow, hv.trans_lt h.2⟩

/-- There is no gap above what lies in the neighbourhood. -/
lemma Contains.of_ge (h : N.Contains w) (hhigh : v < N.high / N.unit) (hv : w ≤ v) :
    N.Contains v := by
  rw [Contains] at h ⊢
  split_ifs at h ⊢
  · exact ⟨h.1.trans hv, hhigh.le⟩
  · exact ⟨h.1.trans_le hv, hhigh⟩

end Contains

/-! ### Grids -/

section Grid

variable {N : Neighbourhood} {digits : Nat} {e : Int}

lemma natCast_pow_toNat (b : Nat) (hb : b ≠ 0) (e : Int) :
    ((Nat.pow b e.toNat : Nat) : ℚ) = b ^ e * (Nat.pow b (-e).toNat : Nat) := by
  have hb : (b : ℚ) ≠ 0 := by exact_mod_cast hb
  rw [Nat.pow_eq, Nat.pow_eq]
  push_cast
  rcases le_total 0 e with h | h
  · obtain ⟨k, rfl⟩ := Int.eq_ofNat_of_zero_le h
    simp
  · obtain ⟨k, hk⟩ := Int.eq_ofNat_of_zero_le (Int.neg_nonneg_of_nonpos h)
    obtain rfl : e = -k := by omega
    simp [hb]

lemma holds_iff (hunit : 0 < N.unit) : N.holds digits e = true ↔ N.Contains (digits * 10 ^ e) := by
  have hu : (0 : ℚ) < N.unit := by exact_mod_cast hunit
  have hten : (0 : ℚ) < (Nat.pow 10 (-e).toNat : Nat) := by
    exact_mod_cast Nat.pow_pos (by norm_num)
  have hcandidate : ((digits * Nat.pow 10 e.toNat * N.unit : Nat) : ℚ)
      = digits * 10 ^ e * N.unit * (Nat.pow 10 (-e).toNat : Nat) := by
    rw [Nat.cast_mul, Nat.cast_mul, natCast_pow_toNat 10 (by norm_num)]
    push_cast
    ring
  rw [holds, Contains]
  split_ifs with hclosed
  · rw [Bool.and_eq_true, decide_eq_true_iff, decide_eq_true_iff, div_le_iff₀ hu, le_div_iff₀ hu,
      ← Nat.cast_le (α := ℚ), ← Nat.cast_le (α := ℚ), hcandidate, Nat.cast_mul, Nat.cast_mul,
      mul_le_mul_iff_left₀ hten, mul_le_mul_iff_left₀ hten]
  · rw [Bool.and_eq_true, decide_eq_true_iff, decide_eq_true_iff, div_lt_iff₀ hu, lt_div_iff₀ hu,
      ← Nat.cast_lt (α := ℚ), ← Nat.cast_lt (α := ℚ), hcandidate, Nat.cast_mul, Nat.cast_mul,
      mul_lt_mul_iff_left₀ hten, mul_lt_mul_iff_left₀ hten]

lemma holds_of_onGrid? (h : N.onGrid? e = some digits) : N.holds digits e = true := by
  rw [onGrid?] at h
  split at h
  · next hdown _ =>
    obtain rfl := Option.some.inj h
    exact hdown
  · next _ hup =>
    obtain rfl := Option.some.inj h
    exact hup
  · cases h
  · next hdown hup =>
    split_ifs at h
    all_goals
      obtain rfl := Option.some.inj h
      assumption

/-- The points of a grid next to the middle. Unless one of them is taken, neither holds. -/
lemma exists_neighbours (hunit : 0 < N.unit) (e : Int) :
    ∃ digits : Nat, (digits : ℚ) * 10 ^ e ≤ N.center ∧ N.center < (digits + 1 : Nat) * 10 ^ e ∧
      (N.onGrid? e = none → N.holds digits e = false ∧ N.holds (digits + 1) e = false) := by
  have hu : (0 : ℚ) < N.unit := by exact_mod_cast hunit
  have hten : (0 : ℚ) < (Nat.pow 10 (-e).toNat : Nat) := by
    exact_mod_cast Nat.pow_pos (by norm_num)
  generalize hdividend : N.middle * Nat.pow 10 (-e).toNat = dividend
  generalize hdivisor : N.unit * Nat.pow 10 e.toNat = divisor
  have hcast : (divisor : ℚ) = 10 ^ e * N.unit * (Nat.pow 10 (-e).toNat : Nat) := by
    rw [← hdivisor, Nat.cast_mul, natCast_pow_toNat 10 (by norm_num)]
    push_cast
    ring
  have hpos : 0 < divisor := by
    rw [← hdivisor]
    exact Nat.mul_pos hunit (Nat.pow_pos (by norm_num))
  have hcenter : N.center = dividend / divisor * 10 ^ e := by
    rw [hcast, ← hdividend, Nat.cast_mul, center]
    field_simp
  refine ⟨dividend / divisor, ?_, ?_, ?_⟩
  · rw [hcenter]
    gcongr
    exact Nat.cast_div_le
  · rw [hcenter]
    gcongr
    rw [div_lt_iff₀ (by exact_mod_cast hpos)]
    exact_mod_cast Nat.lt_mul_of_div_lt (Nat.lt_succ_self _) hpos
  · intro hnone
    rw [onGrid?, hdividend, hdivisor] at hnone
    split at hnone
    · cases hnone
    · cases hnone
    · constructor <;> assumption
    · split_ifs at hnone

/-- A grid finer than the neighbourhood is wide has a point in it. -/
lemma onGrid?_ne_none (hunit : 0 < N.unit) (hmiddle : N.Contains N.center)
    (hfine : (10 : ℚ) ^ e < N.high / N.unit - N.low / N.unit) : N.onGrid? e ≠ none := by
  intro hnone
  obtain ⟨digits, hbelow, habove, hholds⟩ := exists_neighbours hunit e
  obtain ⟨hdown, hup⟩ := hholds hnone
  have hlow : (digits : ℚ) * 10 ^ e ≤ N.low / N.unit := by
    by_contra hlt
    have := (holds_iff hunit).2 (hmiddle.of_le (not_le.1 hlt) hbelow)
    simp [this] at hdown
  have hhigh : N.high / N.unit ≤ ((digits + 1 : Nat) : ℚ) * 10 ^ e := by
    by_contra hlt
    have := (holds_iff hunit).2 (hmiddle.of_ge (not_le.1 hlt) habove.le)
    simp [this] at hup
  push_cast at hhigh
  linarith

end Grid

/-! ### The search -/

section Search

variable {N : Neighbourhood} {e : Int}

/-- What the search finds lies in the neighbourhood if one of the grids has a point in it. -/
lemma contains_search (hunit : 0 < N.unit) {tries : Nat} (step : Nat) (hstep : step < tries)
    (h : N.onGrid? (e - step) ≠ none) : N.Contains (N.search e tries).toRat := by
  induction tries generalizing e step with
  | zero => omega
  | succ tries ih =>
    rw [search]
    split
    · next digits hdigits => exact (holds_iff hunit).1 (holds_of_onGrid? hdigits)
    · next hnone =>
      cases step with
      | zero =>
        rw [Nat.cast_zero, sub_zero] at h
        exact absurd hnone h
      | succ step =>
        apply ih step (by omega)
        rw [sub_sub, add_comm 1]
        exact h

/-- The value has as many places before the point as are counted. -/
lemma ten_pow_places_le (hunit : 0 < N.unit) (hmiddle : 0 < N.middle) :
    (10 : ℚ) ^ (N.places - 1) ≤ N.center := by
  have hu : (0 : ℚ) < N.unit := by exact_mod_cast hunit
  have hm : (0 : ℚ) < N.middle := by exact_mod_cast hmiddle
  rw [places, center]
  by_cases hwhole : N.unit ≤ N.middle
  · -- the number of digits before the point is that of the whole part
    have hpos := digitCount_pos (N.middle / N.unit)
    have hle := ten_pow_digitCount_le (Nat.div_pos hwhole hunit)
    rw [if_pos hwhole, show (digitCount (N.middle / N.unit) : Int) - 1
      = (digitCount (N.middle / N.unit) - 1 : Nat) by omega, zpow_natCast]
    calc (10 : ℚ) ^ (digitCount (N.middle / N.unit) - 1)
        ≤ (N.middle / N.unit : Nat) := by exact_mod_cast hle
      _ ≤ N.middle / N.unit := Nat.cast_div_le
  · rw [if_neg hwhole]
    dsimp only
    have hpos := digitCount_pos (N.unit / N.middle)
    generalize hzeros : digitCount (N.unit / N.middle) = zeros at hpos
    rw [le_div_iff₀ hu]
    split_ifs with hpower
    · have hcast : (N.unit : ℚ) = N.middle * 10 ^ (zeros - 1) := by exact_mod_cast hpower
      rw [hcast, show (2 - (zeros : Int)) - 1 = -((zeros - 1 : Nat) : Int) by omega, zpow_neg,
        zpow_natCast]
      apply le_of_eq
      field_simp
    · have hlt : N.unit < 10 ^ zeros * N.middle := by
        apply Nat.lt_mul_of_div_lt _ hmiddle
        rw [← hzeros]
        exact lt_ten_pow_digitCount _
      have hcast : (N.unit : ℚ) < 10 ^ zeros * N.middle := by exact_mod_cast hlt
      rw [show 1 - (zeros : Int) - 1 = -(zeros : Int) by omega, zpow_neg, zpow_natCast,
        inv_mul_le_iff₀ (by positivity)]
      exact hcast.le

end Search

/-! ### The neighbourhood of a double -/

section Double

variable {m : Nat} {q : Int}

/-- How far the neighbourhood of a double reaches down. -/
def gapBelow (m : Nat) (q : Int) : ℚ :=
  if m = 0x10000000000000 ∧ -1074 < q then 1 / 4 else 1 / 2

lemma unit_pos (m : Nat) (q : Int) : 0 < (neighbourhood m q).unit :=
  Nat.pow_pos (by norm_num)

lemma middle_pos (hm : 0 < m) : 0 < (neighbourhood m q).middle :=
  Nat.mul_pos (by omega) (Nat.pow_pos (by norm_num))

/-- Fractions of the unit of a neighbourhood. -/
lemma scale_div_unit (n : Nat) (q : Int) :
    ((n * Nat.pow 2 (q - 2).toNat : Nat) : ℚ) / (neighbourhood m q).unit = n / 4 * 2 ^ q := by
  have hunit : ((Nat.pow 2 (2 - q).toNat : Nat) : ℚ) ≠ 0 := by
    exact_mod_cast (Nat.pow_pos (by norm_num)).ne'
  change _ / ((Nat.pow 2 (2 - q).toNat : Nat) : ℚ) = _
  rw [Nat.cast_mul, natCast_pow_toNat 2 (by norm_num), show -(q - 2) = 2 - q by ring,
    zpow_sub₀ (by norm_num)]
  push_cast
  field_simp

lemma center_neighbourhood : (neighbourhood m q).center = m * 2 ^ q := by
  rw [center]
  change ((4 * m * Nat.pow 2 (q - 2).toNat : Nat) : ℚ) / _ = _
  rw [scale_div_unit]
  push_cast
  ring

lemma high_neighbourhood :
    ((neighbourhood m q).high : ℚ) / (neighbourhood m q).unit = (m + 1 / 2) * 2 ^ q := by
  change (((4 * m + 2) * Nat.pow 2 (q - 2).toNat : Nat) : ℚ) / _ = _
  rw [scale_div_unit]
  push_cast
  ring

lemma low_neighbourhood (hm : 0 < m) :
    ((neighbourhood m q).low : ℚ) / (neighbourhood m q).unit = (m - gapBelow m q) * 2 ^ q := by
  change (((4 * m - if m = 0x10000000000000 ∧ -1074 < q then 1 else 2)
    * Nat.pow 2 (q - 2).toNat : Nat) : ℚ) / _ = _
  rw [scale_div_unit, gapBelow, Nat.cast_sub (by split_ifs <;> omega)]
  split_ifs <;> push_cast <;> ring

lemma contains_center (hm : 0 < m) : (neighbourhood m q).Contains (neighbourhood m q).center := by
  have hunit : (0 : ℚ) < 2 ^ q := by positivity
  have hgap : 0 < gapBelow m q := by
    rw [gapBelow]
    split_ifs <;> norm_num
  have hlow : ((m : ℚ) - gapBelow m q) * 2 ^ q < m * 2 ^ q :=
    mul_lt_mul_of_pos_right (by linarith) hunit
  have hhigh : (m : ℚ) * 2 ^ q < (m + 1 / 2) * 2 ^ q :=
    mul_lt_mul_of_pos_right (by linarith) hunit
  rw [Contains, low_neighbourhood hm, high_neighbourhood, center_neighbourhood]
  split_ifs
  · exact ⟨hlow.le, hhigh.le⟩
  · exact ⟨hlow, hhigh⟩

/-- What lies in the neighbourhood of a double rounds to it. -/
lemma Contains.roundsTo (hm : 0 < m) {v : ℚ} (h : (neighbourhood m q).Contains v) :
    RoundsTo m q v := by
  have hunit : (0 : ℚ) < 2 ^ q := by positivity
  have hle := h.le
  rw [low_neighbourhood hm, high_neighbourhood, ← le_div_iff₀ hunit, ← div_le_iff₀ hunit] at hle
  have hgap : gapBelow m q ≤ 1 / 2 := by
    rw [gapBelow]
    split_ifs <;> norm_num
  refine ⟨⟨by linarith, hle.2, ?_⟩, ?_⟩
  · -- the ends belong to the neighbourhood of an even mantissa only
    intro hend
    by_contra hodd
    have hopen : (neighbourhood m q).closed = false := decide_eq_false hodd
    rw [Contains, hopen, if_neg Bool.false_ne_true, low_neighbourhood hm, high_neighbourhood,
      ← lt_div_iff₀ hunit, ← div_lt_iff₀ hunit] at h
    rcases hend with hend | hend <;> linarith [h.1, h.2]
  · rintro rfl hq
    rw [gapBelow, if_pos ⟨by norm_num, hq⟩] at hle
    have := hle.1
    push_cast at this
    linarith

end Double

end Neighbourhood

/-- The shortest decimal of a double rounds to it. -/
theorem roundsTo_shortest {m : Nat} {q : Int} (h : IsCanonical m q) :
    RoundsTo m q (shortest m q).toRat := by
  have hunit : (0 : ℚ) < 2 ^ q := by positivity
  have hplaces := Neighbourhood.ten_pow_places_le (Neighbourhood.unit_pos m q)
    (Neighbourhood.middle_pos (q := q) h.pos)
  rw [Neighbourhood.center_neighbourhood] at hplaces
  rw [shortest, if_neg h.pos.ne']
  apply Neighbourhood.Contains.roundsTo h.pos
  apply Neighbourhood.contains_search (Neighbourhood.unit_pos m q) 16 (by norm_num)
  apply Neighbourhood.onGrid?_ne_none (Neighbourhood.unit_pos m q)
    (Neighbourhood.contains_center h.pos)
  have hwidth : (m : ℚ) / 10 ^ 16 < 1 / 2 + Neighbourhood.gapBelow m q := by
    rw [div_lt_iff₀ (by norm_num), Neighbourhood.gapBelow]
    split_ifs with hpower
    · rw [hpower.1]
      norm_num
    · have hlt : (m : ℚ) < 2 ^ 53 := by exact_mod_cast h.lt
      linarith
  rw [Neighbourhood.low_neighbourhood h.pos, Neighbourhood.high_neighbourhood]
  calc (10 : ℚ) ^ ((neighbourhood m q).places - 1 - (16 : Nat))
      = 10 ^ ((neighbourhood m q).places - 1) / 10 ^ 16 := by
        rw [zpow_sub₀ (by norm_num), zpow_natCast]
    _ ≤ m * 2 ^ q / 10 ^ 16 := by gcongr
    _ = m / 10 ^ 16 * 2 ^ q := by ring
    _ < (1 / 2 + Neighbourhood.gapBelow m q) * 2 ^ q := mul_lt_mul_of_pos_right hwidth hunit
    _ = (m + 1 / 2) * 2 ^ q - (m - Neighbourhood.gapBelow m q) * 2 ^ q := by ring

end Workflow.Decimal
