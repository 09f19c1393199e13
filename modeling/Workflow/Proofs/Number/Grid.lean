import Mathlib

/-!
# Grids of numbers

The doubles of one magnitude are the points of a grid. A number is rounded to a nearest point of the
grid that is as fine as the place at which the number begins allows, and so no point of that grid is
nearer. If one half is added to two numbers, and the sums are rounded and then rounded down to the
same integer, the numbers lie within one unit: only right below one half is a sum rounded up to an
integer, and above it the other number would have to lie closer to that integer than it can.
-/

namespace Workflow.Double

/-! ### Grids -/

/-- Whether a number is a point of the grid of the given exponent. -/
def OnGrid (t : Int) (v : ℚ) : Prop :=
  ∃ k : Int, v = k * 2 ^ t

section OnGrid

variable {s t : Int} {v w : ℚ}

lemma OnGrid.mono (h : OnGrid t v) (hle : s ≤ t) : OnGrid s v := by
  obtain ⟨k, rfl⟩ := h
  obtain ⟨d, rfl⟩ : ∃ d : Nat, t = s + d := ⟨(t - s).toNat, by omega⟩
  refine ⟨k * 2 ^ d, ?_⟩
  rw [zpow_add₀ (by norm_num), zpow_natCast]
  push_cast
  ring

lemma OnGrid.add (hv : OnGrid t v) (hw : OnGrid t w) : OnGrid t (v + w) := by
  obtain ⟨k, rfl⟩ := hv
  obtain ⟨l, rfl⟩ := hw
  exact ⟨k + l, by push_cast; ring⟩

lemma onGrid_two_pow (ht : t ≤ s) : OnGrid t (2 ^ s) :=
  OnGrid.mono ⟨1, by simp⟩ ht

lemma onGrid_intCast (n : Int) (ht : t ≤ 0) : OnGrid t n :=
  OnGrid.mono ⟨n, by simp⟩ ht

/-- Between two points of a grid lies at least one step. -/
lemma OnGrid.add_le (hv : OnGrid t v) (hw : OnGrid t w) (hlt : v < w) : v + 2 ^ t ≤ w := by
  obtain ⟨k, rfl⟩ := hv
  obtain ⟨l, rfl⟩ := hw
  have hpos : (0 : ℚ) < 2 ^ t := by positivity
  have hkl : k < l := by exact_mod_cast (mul_lt_mul_iff_left₀ hpos).1 hlt
  have hcast : (k : ℚ) + 1 ≤ l := by exact_mod_cast hkl
  nlinarith

/-- Points that are less than a step apart are the same. -/
lemma OnGrid.eq_of_abs_lt (hv : OnGrid t v) (hw : OnGrid t w) (h : |v - w| < 2 ^ t) : v = w := by
  rw [abs_lt] at h
  rcases lt_trichotomy v w with hlt | heq | hlt
  · linarith [hv.add_le hw hlt]
  · exact heq
  · linarith [hw.add_le hv hlt]

end OnGrid

/-! ### Rounding to a grid -/

/--
What a number is rounded to: a nearest point of the grid that is as fine as the place at which the
number begins allows. A double is rounded to itself.
-/
structure IsRounding (v f : ℚ) (t : Int) : Prop where
  least : -1074 ≤ t
  grid : OnGrid t f
  near : |f - v| ≤ 2 ^ t / 2
  place : 2 ^ (52 + t) ≤ |v| ∨ t = -1074
  below : |v| < 2 ^ (53 + t)

section IsRounding

variable {v f : ℚ} {t : Int}

/-- No point of the grid is nearer. -/
lemma IsRounding.closest (h : IsRounding v f t) {w : ℚ} (hw : OnGrid t w) : |f - v| ≤ |w - v| := by
  by_cases heq : f = w
  · rw [heq]
  · have hstep : (2 : ℚ) ^ t ≤ |f - w| := by
      by_contra hlt
      exact heq (h.grid.eq_of_abs_lt hw (not_le.1 hlt))
    have htriangle : |f - w| ≤ |f - v| + |w - v| := by
      rw [abs_sub_comm w v]
      exact abs_sub_le f v w
    linarith [h.near]

lemma IsRounding.eq_of_onGrid (h : IsRounding v f t) (hv : OnGrid t v) : f = v := by
  have hle := h.closest hv
  rw [sub_self, abs_zero] at hle
  exact sub_eq_zero.1 (abs_eq_zero.1 (le_antisymm hle (abs_nonneg _)))

lemma IsRounding.le_of_onGrid (h : IsRounding v f t) {w : ℚ} (hw : OnGrid t w) (hle : w ≤ v) :
    w ≤ f := by
  have hnear := h.closest hw
  rw [abs_of_nonpos (sub_nonpos.2 hle)] at hnear
  linarith [(abs_le.1 hnear).1]

lemma IsRounding.ge_of_onGrid (h : IsRounding v f t) {w : ℚ} (hw : OnGrid t w) (hle : v ≤ w) :
    f ≤ w := by
  have hnear := h.closest hw
  rw [abs_of_nonneg (sub_nonneg.2 hle)] at hnear
  linarith [(abs_le.1 hnear).2]

end IsRounding

/-! ### Half a unit more -/

section Half

variable {a f : ℚ} {q t : Int}

lemma two_zpow_lt {m n : Int} : (2 : ℚ) ^ m < 2 ^ n ↔ m < n :=
  zpow_lt_zpow_iff_right₀ (by norm_num)

lemma two_zpow_le {m n : Int} : (2 : ℚ) ^ m ≤ 2 ^ n ↔ m ≤ n :=
  zpow_le_zpow_iff_right₀ (by norm_num)

/-- The grid of a number is not much finer than the number is large. -/
lemma IsRounding.lt_of_two_zpow_le (h : IsRounding a f t) {k : Int} (hk : 2 ^ k ≤ |a|) :
    k < 53 + t :=
  two_zpow_lt.1 (hk.trans_lt h.below)

/-- The grid becomes coarser only if the number crosses a power of two. -/
lemma IsRounding.crosses (ha : IsRounding a a q) (h : IsRounding (a + 1 / 2) f t) (hlt : q < t) :
    a < 2 ^ (52 + t) ∧ 2 ^ (52 + t) ≤ a + 1 / 2 := by
  have hbelow : |a| < 2 ^ (52 + t) := ha.below.trans_le (two_zpow_le.2 (by omega))
  have hplace : 2 ^ (52 + t) ≤ |a + 1 / 2| := h.place.resolve_right (by have := ha.least; omega)
  have hpos : 0 ≤ a + 1 / 2 := by
    by_contra hneg
    rw [abs_of_neg (not_le.1 hneg)] at hplace
    linarith [(abs_lt.1 hbelow).1]
  rw [abs_of_nonneg hpos] at hplace
  exact ⟨(abs_lt.1 hbelow).2, hplace⟩

/-- On a grid coarser than the integers one half is lost. -/
lemma IsRounding.eq_of_coarse (ha : IsRounding a a q) (h : IsRounding (a + 1 / 2) f t)
    (ht : 1 ≤ t) : f = a ∧ OnGrid 0 a := by
  have htwo : (2 : ℚ) ^ (1 : Int) ≤ 2 ^ t := two_zpow_le.2 ht
  have hle : t ≤ q := by
    by_contra hlt
    obtain ⟨hbelow, habove⟩ := ha.crosses h (not_le.1 hlt)
    have hbig : (2 : ℚ) ^ (53 : Int) ≤ 2 ^ (52 + t) := two_zpow_le.2 (by omega)
    have hq : (52 : Int) < 53 + q := by
      apply ha.lt_of_two_zpow_le
      refine le_trans ?_ (le_abs_self a)
      norm_num at hbig ⊢
      linarith
    have hwhole : OnGrid 0 a := ha.grid.mono (by omega)
    have := hwhole.add_le (onGrid_two_pow (by omega)) hbelow
    rw [zpow_zero] at this
    linarith
  have hgrid : OnGrid t a := ha.grid.mono hle
  refine ⟨h.grid.eq_of_abs_lt hgrid ?_, hgrid.mono (by omega)⟩
  have hnear := h.closest hgrid
  rw [sub_add_cancel_left, abs_neg, abs_of_pos (by norm_num : (0 : ℚ) < 1 / 2), abs_le] at hnear
  rw [abs_lt]
  norm_num at htwo
  constructor <;> linarith [hnear.1, hnear.2]

/-- Half a unit more is not rounded to less than an integer that it reaches. -/
lemma IsRounding.le_of_le_add_half (ha : IsRounding a a q) (h : IsRounding (a + 1 / 2) f t)
    {n : Int} (hn : (n : ℚ) ≤ a + 1 / 2) : (n : ℚ) ≤ f := by
  by_cases ht : t ≤ 0
  · exact h.le_of_onGrid (onGrid_intCast n ht) hn
  · obtain ⟨rfl, hwhole⟩ := ha.eq_of_coarse h (by omega)
    by_contra hlt
    have := hwhole.add_le (onGrid_intCast n le_rfl) (not_le.1 hlt)
    rw [zpow_zero] at this
    linarith

end Half

/-! ### Sums that are rounded up to an integer -/

/-- One half more than the number is less than the integer, and what it is rounded to is not. -/
structure IsRaised (b f : ℚ) (q t n : Int) : Prop where
  number : IsRounding b b q
  sum : IsRounding (b + 1 / 2) f t
  short : b + 1 / 2 < n
  reached : n ≤ f

section IsRaised

variable {b f : ℚ} {q t n : Int}

/-- The integers are points of the grid. -/
lemma IsRaised.fine (h : IsRaised b f q t n) : t ≤ 0 := by
  by_contra hcoarse
  have hlost := (h.number.eq_of_coarse h.sum (by omega)).1
  linarith [h.short, h.reached]

lemma IsRaised.near (h : IsRaised b f q t n) : n - (b + 1 / 2) ≤ 2 ^ t / 2 := by
  have hsame : f = n :=
    le_antisymm (h.sum.ge_of_onGrid (onGrid_intCast n h.fine) h.short.le) h.reached
  have hnear := h.sum.near
  rw [hsame] at hnear
  exact (le_abs_self _).trans hnear

/--
Across a power of two the integer is one. A power of two that is an integer itself leaves no room
for another one, and so the number lies right below one half.
-/
lemma IsRaised.eq_one (h : IsRaised b f q t n) (hcross : q < t) : n = 1 ∧ t ≤ -53 := by
  obtain ⟨hbelow, habove⟩ := h.number.crosses h.sum hcross
  have hfraction : 52 + t < 0 := by
    by_contra hwhole
    have hstep := (onGrid_two_pow (not_lt.1 hwhole)).add_le (onGrid_intCast n le_rfl)
      (habove.trans_lt h.short)
    rw [zpow_zero] at hstep
    have hhalf : (2 : ℚ) ^ t ≤ 2 ^ (0 : Int) := two_zpow_le.2 h.fine
    rw [zpow_zero] at hhalf
    linarith [h.near]
  refine ⟨?_, by omega⟩
  have hpow : (2 : ℚ) ^ (52 + t) ≤ 2 ^ (-1 : Int) := two_zpow_le.2 (by omega)
  have hsmall : (2 : ℚ) ^ t ≤ 2 ^ (-53 : Int) := two_zpow_le.2 (by omega)
  have hpos : (0 : ℚ) < n := lt_of_lt_of_le (by positivity) (habove.trans h.short.le)
  have hlt : (n : ℚ) < 2 := by
    norm_num at hpow hsmall
    linarith [h.near]
  have h0 : 0 < n := by exact_mod_cast hpos
  have h2 : n < 2 := by exact_mod_cast hlt
  omega

/-- On its own grid the sum would be exact if that grid had a point at one half. -/
lemma IsRaised.eq_zero (h : IsRaised b f q t n) (hsame : t ≤ q) : t = 0 := by
  by_contra hzero
  have hhalf : OnGrid t (1 / 2) := by
    have := onGrid_two_pow (t := t) (s := -1) (by have := h.fine; omega)
    norm_num at this ⊢
    exact this
  have hexact := h.sum.eq_of_onGrid ((h.number.grid.mono hsame).add hhalf)
  linarith [h.short, h.reached]

/-- A number that is less than an integer and one half is at most a unit greater. -/
lemma IsRaised.sub_le_one (h : IsRaised b f q t n) {a : ℚ} {p : Int} (ha : IsRounding a a p)
    (hupper : a + 1 / 2 < n + 1) : a - b ≤ 1 := by
  by_contra hfar
  have hnear := h.near
  by_cases hcross : q < t
  · -- between three halves and the next double below it there is no room for the upper number
    obtain ⟨rfl, hsmall⟩ := h.eq_one hcross
    have hstep : (2 : ℚ) ^ t ≤ 2 ^ (-53 : Int) := two_zpow_le.2 hsmall
    norm_num at hupper hnear hstep
    have hp : (0 : Int) < 53 + p := by
      apply ha.lt_of_two_zpow_le
      rw [zpow_zero]
      exact le_trans (by linarith) (le_abs_self a)
    have hgrid : OnGrid (-52) (3 / 2) := ⟨3 * 2 ^ 51, by norm_num⟩
    have := (ha.grid.mono (by omega)).add_le hgrid (by linarith)
    norm_num at this
    linarith
  · -- the numbers are so large that the upper one is a multiple of one half
    obtain rfl : t = 0 := h.eq_zero (not_lt.1 hcross)
    have hbig : (2 : ℚ) ^ (52 + 0 : Int) ≤ |b + 1 / 2| := h.sum.place.resolve_right (by norm_num)
    have hp : (51 : Int) < 53 + p := by
      apply ha.lt_of_two_zpow_le
      norm_num at hbig hnear ⊢
      rw [le_abs] at hbig ⊢
      rcases hbig with hbig | hbig
      · left; linarith
      · right; linarith
    have hup : OnGrid (-1) (b + 1) :=
      (h.number.grid.mono (by omega)).add (by simpa using onGrid_intCast (t := -1) 1 (by norm_num))
    have := hup.add_le (ha.grid.mono (by omega)) (by linarith)
    norm_num at this hnear
    linarith

end IsRaised

/-- Numbers that are rounded to one integer, a half going up, lie within one unit. -/
theorem sub_le_one_of_floor_eq {a b fa fb : ℚ} {qa qb ta tb : Int} (ha : IsRounding a a qa)
    (hb : IsRounding b b qb) (hfa : IsRounding (a + 1 / 2) fa ta)
    (hfb : IsRounding (b + 1 / 2) fb tb) (h : ⌊fa⌋ = ⌊fb⌋) : a - b ≤ 1 := by
  have hupper : a + 1 / 2 < ⌊fb⌋ + 1 := by
    by_contra hle
    have hceil := ha.le_of_le_add_half hfa (n := ⌊fb⌋ + 1) (by push_cast; linarith)
    push_cast at hceil
    linarith [h ▸ Int.lt_floor_add_one fa]
  by_cases hlower : b + 1 / 2 < ⌊fb⌋
  · exact IsRaised.sub_le_one ⟨hb, hfb, hlower, Int.floor_le fb⟩ ha hupper
  · linarith

end Workflow.Double
