import Mathlib.Algebra.Group.Int.Even
import Mathlib.Data.Rat.Floor
import Mathlib.Tactic.Linarith
import Mathlib.Tactic.Positivity
import PointRelaxation.Binary64

/-!
# The nearest whole number

A ratio of naturals is rounded by its remainder, of which twice is compared to the divisor. That is
how the ratio lies to the middle of the whole numbers around it, so what is found is the nearest
one, and of two that are as near the even one.

* `nearestEven`: the nearest whole number, a half to the even one.
* `IsNearestEven.unique`: no other one is nearest in this sense.
* `compare_remainder`: what twice a remainder tells.
* `nearestEven_ratio`, `abs_roundHalfEven_sub_le`: how ratios of naturals are rounded.
-/

namespace PointRelaxation

/-! ## Halves to the even neighbour -/

/-- The nearest whole number, and the even one where two are as near. -/
def nearestEven (x : ℚ) : ℤ :=
  if Int.fract x < 1 / 2 then ⌊x⌋
  else if 1 / 2 < Int.fract x then ⌊x⌋ + 1
  else ⌊x⌋ + ⌊x⌋ % 2

/-- `n` is nearest to `x`, and even if another whole number is as near. -/
structure IsNearestEven (x : ℚ) (n : ℤ) : Prop where
  near : |x - n| ≤ 1 / 2
  even : |x - n| = 1 / 2 → Even n

lemma isNearestEven_of_near {x : ℚ} {n : ℤ} (h : |x - n| < 1 / 2) : IsNearestEven x n :=
  ⟨h.le, fun heq => absurd heq h.ne⟩

lemma IsNearestEven.neg {x : ℚ} {n : ℤ} (h : IsNearestEven x n) : IsNearestEven (-x) (-n) := by
  have hdist : |(-x) - ((-n : ℤ) : ℚ)| = |x - n| := by
    rw [Int.cast_neg, neg_sub_neg, abs_sub_comm]
  constructor
  · rw [hdist]
    exact h.near
  · intro hhalf
    rw [hdist] at hhalf
    exact (h.even hhalf).neg

/-- Two that are nearest are at most one apart, and next to each other only one is even. -/
lemma IsNearestEven.unique {x : ℚ} {m n : ℤ} (hm : IsNearestEven x m) (hn : IsNearestEven x n) :
    m = n := by
  wlog hle : m ≤ n generalizing m n
  · exact (this hn hm (by omega)).symm
  obtain ⟨-, hm'⟩ := abs_le.1 hm.near
  obtain ⟨hn', -⟩ := abs_le.1 hn.near
  have hstep : n ≤ m + 1 := by
    have hcast : (n : ℚ) ≤ m + 1 := by linarith
    exact_mod_cast hcast
  by_contra hne
  obtain rfl : n = m + 1 := by omega
  push_cast at hn'
  have hlow : |x - m| = 1 / 2 := by
    rw [abs_of_nonneg] <;> linarith
  have hhigh : |x - (m + 1 : ℤ)| = 1 / 2 := by
    push_cast
    rw [abs_of_nonpos] <;> linarith
  exact Int.even_add_one.1 (hn.even hhigh) (hm.even hlow)

lemma isNearestEven_nearestEven (x : ℚ) : IsNearestEven x (nearestEven x) := by
  have hsplit := Int.floor_add_fract x
  have hnonneg := Int.fract_nonneg x
  have hlt := Int.fract_lt_one x
  unfold nearestEven
  split_ifs with hlow hhigh
  · refine isNearestEven_of_near ?_
    rw [abs_of_nonneg] <;> linarith
  · refine isNearestEven_of_near ?_
    push_cast
    rw [abs_of_nonpos] <;> linarith
  · -- the even one of the two neighbours
    have hhalf : Int.fract x = 1 / 2 := le_antisymm (not_lt.1 hhigh) (not_lt.1 hlow)
    refine ⟨?_, fun _ => Int.even_iff.2 (by omega)⟩
    rcases Int.emod_two_eq_zero_or_one ⌊x⌋ with hmod | hmod
    · rw [hmod, abs_le]
      push_cast
      constructor <;> linarith
    · rw [hmod, abs_le]
      push_cast
      constructor <;> linarith

lemma IsNearestEven.eq {x : ℚ} {n : ℤ} (h : IsNearestEven x n) : nearestEven x = n :=
  (isNearestEven_nearestEven x).unique h

/-! ## Ratios of naturals -/

variable {den : ℕ}

/-- A ratio is its whole part and what the remainder adds to it. -/
lemma ratio_eq_add (num den : ℕ) :
    (num : ℚ) / den = (num / den : ℕ) + ((num % den : ℕ) : ℚ) / den := by
  have hsplit := Int.floor_add_fract ((num : ℚ) / den)
  rw [Rat.floor_natCast_div_natCast, Int.fract_div_natCast_eq_div_natCast_mod] at hsplit
  exact_mod_cast hsplit.symm

lemma fract_lt_half_iff (num : ℕ) (hden : 0 < den) :
    Int.fract ((num : ℚ) / den) < 1 / 2 ↔ 2 * (num % den) < den := by
  have hpos : (0 : ℚ) < den := by exact_mod_cast hden
  rw [Int.fract_div_natCast_eq_div_natCast_mod, div_lt_div_iff₀ hpos two_pos, mul_comm, one_mul]
  norm_cast

lemma half_lt_fract_iff (num : ℕ) (hden : 0 < den) :
    1 / 2 < Int.fract ((num : ℚ) / den) ↔ den < 2 * (num % den) := by
  have hpos : (0 : ℚ) < den := by exact_mod_cast hden
  rw [Int.fract_div_natCast_eq_div_natCast_mod, div_lt_div_iff₀ two_pos hpos,
    mul_comm _ (2 : ℚ), one_mul]
  norm_cast

/-- Twice the remainder lies to the divisor as the ratio lies to the middle of the whole numbers
around it. -/
lemma compare_remainder (num : ℕ) (hden : 0 < den) :
    compare (2 * (num % den)) den = compare ((num : ℚ) / den) ((num / den : ℕ) + 1 / 2) := by
  have hlow := fract_lt_half_iff num hden
  have hhigh := half_lt_fract_iff num hden
  rw [Int.fract_div_natCast_eq_div_natCast_mod] at hlow hhigh
  rw [ratio_eq_add num den]
  rcases lt_trichotomy (2 * (num % den)) den with h | h | h
  · rw [compare_lt_iff_lt.2 h, eq_comm, compare_lt_iff_lt]
    linarith [hlow.2 h]
  · rw [compare_eq_iff_eq.2 h, eq_comm, compare_eq_iff_eq]
    linarith [not_lt.1 (mt hlow.1 h.not_lt), not_lt.1 (mt hhigh.1 h.not_gt)]
  · rw [compare_gt_iff_gt.2 h, eq_comm, compare_gt_iff_gt]
    linarith [hhigh.2 h]

/-- Ratios of naturals are rounded to the nearest whole number, a half to the even one. -/
lemma nearestEven_ratio (num : ℕ) (hden : 0 < den) :
    nearestEven (num / den) = roundHalfEven num den := by
  unfold nearestEven roundHalfEven
  simp only [fract_lt_half_iff num hden, half_lt_fract_iff num hden,
    Rat.floor_natCast_div_natCast]
  split_ifs <;> push_cast <;> rfl

/-- So they are off by at most a half. -/
lemma abs_roundHalfEven_sub_le (num : ℕ) (hden : 0 < den) :
    |(roundHalfEven num den : ℚ) - num / den| ≤ 1 / 2 := by
  have hnear := (isNearestEven_nearestEven ((num : ℚ) / den)).near
  rwa [nearestEven_ratio num hden, Int.cast_natCast, abs_sub_comm] at hnear

end PointRelaxation
