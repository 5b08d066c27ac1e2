import PointRelaxation.Proofs.Binary64Sums

/-!
# Products, quotients and roots

A product, a quotient or a root is handed to rounding as its whole part, with what there is to know
of the rest: nothing, less than a half, a half, or more. That is enough to find the nearest number.
How the nearest number lies to other ones is then told by how the exact result lies to them.

* `NearestSize.le_of_le`, `NearestSize.le_of_ge`: numbers on either side of the exact result are on
  that side of the rounded one.
* `count?_mul`, `count?_div`: the size of a product and of a quotient.
* `count?_sqrt`: the size of a root, told by squares.
-/

namespace PointRelaxation.Binary64

open Float.Model
open UnpackedFloat (Sign ExtendedMantissa Accuracy)

/-! ## The nearest size -/

lemma isSize_zero : IsSize 0 := ⟨0, 0, ⟨by norm_num, fun h => absurd rfl h⟩, rfl⟩

lemma isSize_two_pow (j : ℕ) : IsSize (2 ^ j) := by
  rcases Nat.lt_or_ge j 53 with hj | hj
  · exact ⟨2 ^ j, 0, ⟨Nat.pow_lt_pow_right one_lt_two hj, fun h => absurd rfl h⟩, by simp⟩
  · refine ⟨2 ^ 52, j - 52, ⟨by norm_num, fun _ => le_rfl⟩, ?_⟩
    rw [← pow_add]
    congr 1
    omega

/-- Twice a size is a size: its exponent is one larger, or its significand one bit longer. -/
lemma IsSize.double {w : ℕ} (h : IsSize w) : IsSize (2 * w) := by
  obtain ⟨m, k, hfits, rfl⟩ := h
  by_cases hlong : 2 ^ 52 ≤ m
  · exact ⟨m, k + 1, ⟨hfits.short, fun _ => hlong⟩, by ring⟩
  · have hk : k = 0 := by
      by_contra hk
      exact hlong (hfits.long hk)
    exact ⟨2 * m, k, ⟨by omega, fun h => absurd hk h⟩, by ring⟩

lemma IsSize.max {v w : ℕ} (hv : IsSize v) (hw : IsSize w) : IsSize (max v w) := by
  rcases max_choice v w with h | h
  · rwa [h]
  · rwa [h]

namespace NearestSize

variable {q q' : ℚ} {r r' w : ℕ}

/-- A size that is not below a quantity is not below what that is rounded to. -/
lemma le_of_le (h : NearestSize q r) (hw : IsSize w) (hle : q ≤ w) : r ≤ w := by
  by_contra hlt
  have hlt : (w : ℚ) < r := by exact_mod_cast not_le.1 hlt
  have hnear := h.near hw
  rw [abs_of_nonneg (by linarith), abs_of_nonneg (by linarith)] at hnear
  linarith

/-- A size that is not above a quantity is not above what that is rounded to. -/
lemma le_of_ge (h : NearestSize q r) (hw : IsSize w) (hle : (w : ℚ) ≤ q) : w ≤ r := by
  by_contra hlt
  have hlt : (r : ℚ) < w := by exact_mod_cast not_le.1 hlt
  have hnear := h.near hw
  rw [abs_of_nonpos (by linarith), abs_of_nonpos (by linarith)] at hnear
  linarith

/-- The larger of two quantities is not rounded to a smaller size. -/
lemma mono (h : NearestSize q r) (h' : NearestSize q' r') (hlt : q < q') : r ≤ r' := by
  by_contra hne
  have hne : (r' : ℚ) < r := by exact_mod_cast not_le.1 hne
  have hlow := middle_le hne (h.near h'.isSize)
  have hhigh := le_middle hne (h'.near h.isSize)
  linarith

lemma of_eq_zero (h : q = 0) : NearestSize q 0 := by
  refine ⟨isSize_zero, fun {w} _ => ?_⟩
  rw [h, Nat.cast_zero, sub_zero, abs_zero]
  exact abs_nonneg _

end NearestSize

/-! ## The rest behind a whole part -/

namespace Tracks

/-- A rest is known by how it compares to a half. -/
lemma inexact {m : ℕ} {x : ℚ} (hlow : (m : ℚ) < x) (hhigh : x < m + 1) :
    Tracks (ExtendedMantissa.ofMantissaAndAccuracy m (.inexact (compare x (m + 1 / 2)))) x := by
  rcases lt_trichotomy x (m + 1 / 2) with h | h | h
  · rw [compare_lt_iff_lt.2 h]
    refine ⟨hlow.le, hhigh, iff_of_false Bool.false_ne_true ?_, iff_of_true rfl ⟨hlow.ne', h.ne⟩⟩
    exact not_le.2 h
  · rw [compare_eq_iff_eq.2 h]
    exact ⟨hlow.le, hhigh, iff_of_true rfl h.ge, iff_of_false Bool.false_ne_true fun hne => hne.2 h⟩
  · rw [compare_gt_iff_gt.2 h]
    exact ⟨hlow.le, hhigh, iff_of_true rfl h.le, iff_of_true rfl ⟨hlow.ne', h.ne'⟩⟩

/-- The rest of a division is known by twice the remainder. -/
lemma fraction (n : ℕ) {d : ℕ} (hd : 0 < d) :
    Tracks (ExtendedMantissa.ofMantissaAndAccuracy (n / d)
      (UnpackedFloat.accuracyOfFraction (n % d) d)) (n / d) := by
  have hpos : (0 : ℚ) < d := by exact_mod_cast hd
  have hvalue := ratio_eq_add n d
  unfold UnpackedFloat.accuracyOfFraction
  split_ifs with hrest
  · rw [hvalue, hrest, Nat.cast_zero, zero_div, add_zero]
    exact exact (n / d)
  · have hlow : (0 : ℚ) < ((n % d : ℕ) : ℚ) / d :=
      div_pos (by exact_mod_cast Nat.pos_of_ne_zero hrest) hpos
    have hhigh : ((n % d : ℕ) : ℚ) / d < 1 := by
      rw [div_lt_one hpos]
      exact_mod_cast Nat.mod_lt n hd
    rw [compare_remainder n hd]
    exact inexact (by linarith) (by linarith)

end Tracks

/-! ## Rounding what is handed over -/

lemma mantissa_ofMantissaAndAccuracy (m : ℕ) (accuracy : Accuracy) :
    (ExtendedMantissa.ofMantissaAndAccuracy m accuracy).mantissa = m := by
  unfold ExtendedMantissa.ofMantissaAndAccuracy
  split <;> rfl

/-- The first shift of a rounding drops `k` places of a significand `m` with the exponent `e`, which
leaves it `d` places above the least unit. -/
structure Placed (m : ℕ) (e : ℤ) (k d : ℕ) : Prop where
  dropped : e + k = d - 1074
  target : d - 1074 = max (m.log2 + e - 52) (-1074)

/-- Places are dropped, and not added, of a significand that is long or counted in small units. -/
lemma exists_placed {m : ℕ} {e : ℤ} (hlong : 2 ^ 52 ≤ m ∨ e ≤ -1074) : ∃ k d, Placed m e k d := by
  have hlog : 2 ^ 52 ≤ m → 52 ≤ m.log2 := fun h => (Nat.le_log2 (by omega)).2 h
  obtain ⟨d, hd⟩ : ∃ d : ℕ, (d : ℤ) - 1074 = max (m.log2 + e - 52) (-1074) :=
    ⟨(max ((m.log2 : ℤ) + e - 52) (-1074) + 1074).toNat, by omega⟩
  obtain ⟨k, hk⟩ : ∃ k : ℕ, e + k = d - 1074 := ⟨((d : ℤ) - 1074 - e).toNat, by omega⟩
  exact ⟨k, d, hk, hd⟩

namespace Placed

variable {m k d : ℕ} {e : ℤ} {x : ℚ}

lemma shift (h : Placed m e k d) (accuracy : Accuracy) :
    UnpackedFloat.shiftToTargetExponent Format.binary64 m e accuracy =
      (ExtendedMantissa.ofMantissaAndAccuracy m accuracy >>> k, (d : ℤ) - 1074) := by
  obtain ⟨hk, hd⟩ := h
  have hshift : (max ((m.log2 : ℤ) + e - 52) (-1074) - e).toNat = k := by omega
  rw [shiftToTargetExponent_eq, hshift, hk]

/-- In the units that are left, the quantity is what the dropped places leave of it. -/
lemma units (h : Placed m e k d) (x : ℚ) : x * 2 ^ (e + 1074) / 2 ^ d = x / 2 ^ k := by
  have hexponent : e + 1074 = (d : ℤ) - k := by
    have hk := h.dropped
    omega
  rw [hexponent, zpow_sub₀ two_ne_zero, zpow_natCast, zpow_natCast]
  field_simp

/-- No more than 53 bits are left. -/
lemma short (h : Placed m e k d) (hx : x < m + 1) : x / 2 ^ k ≤ (2 ^ 53 : ℕ) := by
  obtain ⟨hk, hd⟩ := h
  have hbits : m < 2 ^ (53 + k) :=
    Nat.lt_log2_self.trans_le (Nat.pow_le_pow_right two_pos (by omega))
  have hm : (m : ℚ) + 1 ≤ (2 ^ 53 : ℕ) * 2 ^ k := by
    rw [pow_add] at hbits
    exact_mod_cast hbits
  rw [div_le_iff₀ (by positivity)]
  exact hx.le.trans hm

/-- No fewer are left, unless the least exponent is reached. -/
lemma long (h : Placed m e k d) (hlong : 2 ^ 52 ≤ m ∨ e ≤ -1074) (hx : (m : ℚ) ≤ x) (hd : d ≠ 0) :
    ((2 ^ 52 * 2 ^ d : ℕ) : ℚ) ≤ x * 2 ^ (e + 1074) := by
  obtain ⟨hk, htarget⟩ := h
  have hpos : m ≠ 0 := by
    rintro rfl
    rcases hlong with hlong | hlong
    · exact absurd hlong (by decide)
    · rw [Nat.log2_zero] at htarget
      omega
  have hm : 2 ^ 52 * 2 ^ k ≤ m := by
    rw [← pow_add, show 52 + k = m.log2 by omega]
    exact Nat.log2_self_le hpos
  have hleft : (2 ^ 52 : ℚ) ≤ x * 2 ^ (e + 1074) / 2 ^ d := by
    rw [Placed.units ⟨hk, htarget⟩, le_div_iff₀ (by positivity)]
    exact le_trans (by exact_mod_cast hm) hx
  rw [le_div_iff₀ (by positivity)] at hleft
  exact_mod_cast hleft

end Placed

/-- A whole part of 53 bits or more is rounded to the nearest size, and so is any whole part that is
counted in least units or smaller ones. -/
lemma count?_roundWithAccuracy (s : Sign) {m : ℕ} {e : ℤ} {accuracy : Accuracy} {x : ℚ}
    (hx : Tracks (ExtendedMantissa.ofMantissaAndAccuracy m accuracy) x)
    (hlong : 2 ^ 52 ≤ m ∨ e ≤ -1074) :
    ∃ r, NearestSize (x * 2 ^ (e + 1074)) r ∧
      count? (.ofModel (.pack (UnpackedFloat.roundWithAccuracy Format.binary64 s m e accuracy))) =
        some (s.apply (min r farCount : ℕ)) := by
  have hle := hx.mantissa_le
  have hlt := hx.lt_mantissa
  rw [mantissa_ofMantissaAndAccuracy] at hle hlt
  obtain ⟨k, d, hplaced⟩ := exists_placed hlong
  obtain ⟨n, hn⟩ : ∃ n, (ExtendedMantissa.ofMantissaAndAccuracy m accuracy >>>
    k).roundedMantissa = n := ⟨_, rfl⟩
  -- what is left of the quantity is rounded to a whole number
  have hnear : |(n : ℚ) - x / 2 ^ k| ≤ 1 / 2 := hn ▸ (hx.shiftRight k).near
  have hshort : n ≤ 2 ^ 53 := ge_of_near hnear (hplaced.short hlt)
  have hleast := hplaced.long hlong hle
  rw [← hplaced.units x] at hnear
  exact ⟨n * 2 ^ d, nearestSize_of_near hnear hshort hleast,
    count?_of_shift s (hplaced.shift accuracy) hn hshort fun hd => bits_of_near hnear (hleast hd)⟩

/-! ## Numbers of one count -/

lemma natAbs_apply (s : Sign) (n : ℕ) : (s.apply n).natAbs = n := by
  cases s with
  | negative => exact (Int.natAbs_neg n).trans (Int.natAbs_natCast n)
  | positive => exact Int.natAbs_natCast n

/-- Sizes of one number of units have one significand and one exponent. -/
lemma Fits.eq_of_count {m m' k k' : ℕ} (h : Fits m k) (h' : Fits m' k')
    (heq : m * 2 ^ k = m' * 2 ^ k') : m = m' ∧ k = k' := by
  have hle := (h.count_le_iff h').1 heq.le
  have hge := (h'.count_le_iff h).1 heq.ge
  omega

/-- A count other than zero belongs to one number. -/
lemma eq_of_count {x y : Float} {z : ℤ} (hx : count? x = some z) (hy : count? y = some z)
    (hz : |z| < farCount) (hne : z ≠ 0) : x = y := by
  rcases unpack_of_finite hx hz with ⟨s, -, hzero⟩ | ⟨s, m, k, hm, hs, hfits, -, hcount⟩
  · exact absurd hzero hne
  rcases unpack_of_finite hy hz with ⟨s', -, hzero⟩ | ⟨s', m', k', hm', hs', hfits', -, hcount'⟩
  · exact absurd hzero hne
  rw [hcount] at hcount'
  have hsizes := congrArg Int.natAbs hcount'
  rw [natAbs_apply, natAbs_apply] at hsizes
  obtain ⟨rfl, rfl⟩ := hfits.eq_of_count hfits' hsizes
  have hpos : 0 < m * 2 ^ k := Nat.mul_pos hm (Nat.two_pow_pos k)
  have hsigns : s = s' := by
    cases s with
    | negative =>
      cases s' with
      | negative => rfl
      | positive =>
        dsimp only [Sign.apply] at hcount'
        omega
    | positive =>
      cases s' with
      | negative =>
        dsimp only [Sign.apply] at hcount'
        omega
      | positive => rfl
  rw [← unpack_inj, hs, hs', hsigns]

/-! ## Products -/

/-- The exponent of one, above that of the least unit. -/
def oneExponent : ℕ := 1074

/-- The size of one, in least units. -/
@[irreducible] def oneCount : ℕ := 2 ^ oneExponent

lemma oneCount_pos : 0 < oneCount := by
  unfold oneCount
  exact Nat.two_pow_pos oneExponent

lemma isSize_oneCount : IsSize oneCount := by
  unfold oneCount
  exact isSize_two_pow oneExponent

lemma oneCount_eq : (oneCount : ℚ) = 2 ^ (1074 : ℤ) := by
  unfold oneCount
  rw [Nat.cast_pow, Nat.cast_ofNat]
  exact (zpow_natCast 2 oneExponent).symm

/-- A size has the sign of a product as it has those of both factors. -/
lemma apply_mul_apply (s s' : Sign) {a b : ℕ} (ha : 0 < a) (hb : 0 < b) (n : ℕ) :
    (s * s').apply n = (s.apply a * s'.apply b).sign * n := by
  have hsign (s : Sign) {a : ℕ} (ha : 0 < a) : (s.apply a).sign = s.apply 1 := by
    have hpos : (a : ℤ).sign = 1 := Int.sign_eq_one_of_pos (by exact_mod_cast ha)
    cases s with
    | negative => exact (Int.sign_neg (a : ℤ)).trans (congrArg _ hpos)
    | positive => exact hpos
  rw [Int.sign_mul, hsign s ha, hsign s' hb]
  cases s with
  | negative =>
    cases s' with
    | negative => exact (one_mul (n : ℤ)).symm
    | positive => exact neg_eq_neg_one_mul (n : ℤ)
  | positive =>
    cases s' with
    | negative => exact neg_eq_neg_one_mul (n : ℤ)
    | positive => exact (one_mul (n : ℤ)).symm

/-- The product of two finite numbers has the size that is nearest to the exact one. -/
lemma count?_mul {x y : Float} {z w : ℤ} (hx : count? x = some z) (hy : count? y = some w)
    (hz : |z| < farCount) (hw : |w| < farCount) :
    ∃ r, NearestSize (z.natAbs * w.natAbs / oneCount) r ∧
      count? (x * y) = some ((z * w).sign * (min r farCount : ℕ)) := by
  rw [float_mul_eq]
  rcases unpack_of_finite hx hz with ⟨s, hs, rfl⟩ | ⟨s, m, k, hm, hs, hfits, -, rfl⟩
  · refine ⟨0, .of_eq_zero (by rw [Int.natAbs_zero, Nat.cast_zero, zero_mul, zero_div]), ?_⟩
    rw [zero_mul, Int.sign_zero, zero_mul, hs]
    rcases unpack_of_finite hy hw with ⟨s', hs', -⟩ | ⟨s', m', k', hm', hs', -⟩
    · rw [hs']
      exact count?_pack_zero _
    · rw [hs']
      exact count?_pack_zero _
  · rcases unpack_of_finite hy hw with ⟨s', hs', rfl⟩ | ⟨s', m', k', hm', hs', hfits', -, rfl⟩
    · refine ⟨0, .of_eq_zero (by rw [Int.natAbs_zero, Nat.cast_zero, mul_zero, zero_div]), ?_⟩
      rw [mul_zero, Int.sign_zero, zero_mul, hs, hs']
      exact count?_pack_zero _
    · -- only two short significands have a short product, and a small one
      have hlong : 2 ^ 52 ≤ m * m' ∨ ((k : ℤ) - 1074 + (k' - 1074)) ≤ -1074 := by
        by_cases hk : k = 0
        · by_cases hk' : k' = 0
          · exact .inr (by omega)
          · exact .inl ((hfits'.long hk').trans (Nat.le_mul_of_pos_left _ hm))
        · exact .inl ((hfits.long hk).trans (Nat.le_mul_of_pos_right _ hm'))
      obtain ⟨r, hr, hcount⟩ := count?_roundWithAccuracy (s * s') (Tracks.exact (m * m')) hlong
      refine ⟨r, ?_, ?_⟩
      · convert hr using 1
        have hexponent : (k : ℤ) - 1074 + (k' - 1074) + 1074 = k + k' - 1074 := by ring
        rw [natAbs_apply, natAbs_apply, oneCount_eq, hexponent, zpow_sub₀ two_ne_zero,
          zpow_add₀ two_ne_zero, zpow_natCast, zpow_natCast]
        generalize (2 : ℚ) ^ (1074 : ℤ) = one
        push_cast
        ring
      · rw [hs, hs', ← apply_mul_apply s s' (Nat.mul_pos hm (Nat.two_pow_pos k))
          (Nat.mul_pos hm' (Nat.two_pow_pos k'))]
        exact hcount

/-! ## Quotients -/

lemma targetExponent_of_total (t : ℤ) :
    Format.binary64.targetExponent t = max (t - 53) (-1074) := by
  unfold Format.targetExponent
  rw [minExponent_eq]
  rfl

/-- The significand of the first number is made long enough that the whole part of the quotient has
53 bits, unless it is counted in least units. -/
lemma divCore_eq {m m' : ℕ} (hm : 0 < m) (hm' : 0 < m') (k k' : ℕ) :
    ∃ (j : ℕ) (e : ℤ), UnpackedFloat.divCore Format.binary64 m (k - 1074) m' (k' - 1074) =
        (m * 2 ^ j / m', e, UnpackedFloat.accuracyOfFraction (m * 2 ^ j % m') m') ∧
      e + j = k - k' ∧ (2 ^ 52 ≤ m * 2 ^ j / m' ∨ e ≤ -1074) := by
  obtain ⟨e, he⟩ : ∃ e : ℤ, e = min ((k : ℤ) - k') (max (m.log2 + k - m'.log2 - k' - 53) (-1074)) :=
    ⟨_, rfl⟩
  obtain ⟨j, hj⟩ : ∃ j : ℕ, e + j = k - k' := ⟨((k : ℤ) - k' - e).toNat, by omega⟩
  refine ⟨j, e, ?_, hj, ?_⟩
  · have hunits : (k : ℤ) - 1074 - (k' - 1074) = k - k' := by ring
    have htarget : min ((k : ℤ) - k') (Format.binary64.targetExponent
        (totalExponent m (k - 1074) - totalExponent m' (k' - 1074))) = e := by
      rw [targetExponent_of_total, he]
      unfold totalExponent
      congr 2
      ring
    have hshift : ((k : ℤ) - k' - e).toNat = j := by omega
    unfold UnpackedFloat.divCore
    dsimp only
    rw [hunits, htarget, hshift, Nat.shiftLeft_eq]
  · by_cases hleast : e ≤ -1074
    · exact .inr hleast
    · refine .inl ((Nat.le_div_iff_mul_le hm').2 ?_)
      calc 2 ^ 52 * m' ≤ 2 ^ 52 * 2 ^ (m'.log2 + 1) := Nat.mul_le_mul_left _ Nat.lt_log2_self.le
        _ = 2 ^ (m'.log2 + 53) := by rw [← pow_add]; congr 1; omega
        _ ≤ 2 ^ (m.log2 + j) := Nat.pow_le_pow_right two_pos (by omega)
        _ = 2 ^ m.log2 * 2 ^ j := pow_add _ _ _
        _ ≤ m * 2 ^ j := Nat.mul_le_mul_right _ (Nat.log2_self_le hm.ne')

/-- The quotient of two finite numbers has the size that is nearest to the exact one. -/
lemma count?_div {x y : Float} {z w : ℤ} (hx : count? x = some z) (hy : count? y = some w)
    (hz : |z| < farCount) (hw : |w| < farCount) (hne : w ≠ 0) :
    ∃ r, NearestSize (z.natAbs / w.natAbs * oneCount) r ∧
      count? (x / y) = some ((z * w).sign * (min r farCount : ℕ)) := by
  rw [float_div_eq]
  rcases unpack_of_finite hy hw with ⟨-, -, hzero⟩ | ⟨s', m', k', hm', hs', -, -, rfl⟩
  · exact absurd hzero hne
  rcases unpack_of_finite hx hz with ⟨s, hs, rfl⟩ | ⟨s, m, k, hm, hs, -, -, rfl⟩
  · refine ⟨0, .of_eq_zero (by rw [Int.natAbs_zero, Nat.cast_zero, zero_div, zero_mul]), ?_⟩
    rw [zero_mul, Int.sign_zero, zero_mul, hs, hs']
    exact count?_pack_zero _
  · obtain ⟨j, e, hcore, hunits, hlong⟩ := divCore_eq hm hm' k k'
    obtain ⟨r, hr, hcount⟩ :=
      count?_roundWithAccuracy (s / s') (Tracks.fraction (m * 2 ^ j) hm') hlong
    refine ⟨r, ?_, ?_⟩
    · convert hr using 1
      have hexponent : e + 1074 = k - k' - j + 1074 := by omega
      rw [natAbs_apply, natAbs_apply, oneCount_eq, hexponent, zpow_add₀ two_ne_zero,
        zpow_sub₀ two_ne_zero, zpow_sub₀ two_ne_zero, zpow_natCast, zpow_natCast, zpow_natCast]
      generalize (2 : ℚ) ^ (1074 : ℤ) = one
      push_cast
      field_simp
    · have hsign : s / s' = s * s' := by cases s <;> cases s' <;> rfl
      rw [hs, hs', ← apply_mul_apply s s' (Nat.mul_pos hm (Nat.two_pow_pos k))
        (Nat.mul_pos hm' (Nat.two_pow_pos k')), ← hsign, ← hcount]
      unfold UnpackedFloat.div
      dsimp only
      rw [hcore]

/-! ## Roots -/

/-- A root need not be rational. What is known of its rest is known of a rational number as well,
which lies to whole numbers as the root does. -/
lemma exists_tracks_root (n : ℕ) : ∃ x : ℚ,
    Tracks (ExtendedMantissa.ofMantissaAndAccuracy n.sqrt
      (if n - n.sqrt * n.sqrt = 0 then .exact
        else .inexact (if n - n.sqrt * n.sqrt ≤ n.sqrt then .lt else .gt))) x ∧
      (∀ v : ℕ, n ≤ v * v → x ≤ v) ∧ ∀ v : ℕ, v * v ≤ n → (v : ℚ) ≤ x := by
  have hroot : ∀ v : ℕ, v * v ≤ n → (v : ℚ) ≤ n.sqrt := by
    intro v hv
    exact_mod_cast Nat.le_sqrt.2 hv
  by_cases hrest : n - n.sqrt * n.sqrt = 0
  · refine ⟨n.sqrt, ?_, ?_, hroot⟩
    · rw [if_pos hrest]
      exact .exact n.sqrt
    · intro v hv
      have hsquare : n.sqrt * n.sqrt ≤ v * v := (Nat.sqrt_le n).trans hv
      exact_mod_cast Nat.mul_self_le_mul_self_iff.1 hsquare
  · -- the next whole number is above the root, and a quarter or three are on its side of the half
    have habove : ∀ v : ℕ, n ≤ v * v → (n.sqrt : ℚ) + 1 ≤ v := by
      intro v hv
      have hsquare : n.sqrt * n.sqrt < v * v := by omega
      exact_mod_cast Nat.mul_self_lt_mul_self_iff.1 hsquare
    rw [if_neg hrest]
    by_cases hhalf : n - n.sqrt * n.sqrt ≤ n.sqrt
    · have htracks := Tracks.inexact (m := n.sqrt) (x := n.sqrt + 1 / 4) (by linarith) (by linarith)
      rw [compare_lt_iff_lt.2 (by linarith)] at htracks
      rw [if_pos hhalf]
      exact ⟨_, htracks, fun v hv => by linarith [habove v hv],
        fun v hv => by linarith [hroot v hv]⟩
    · have htracks := Tracks.inexact (m := n.sqrt) (x := n.sqrt + 3 / 4) (by linarith) (by linarith)
      rw [compare_gt_iff_gt.2 (by linarith)] at htracks
      rw [if_neg hhalf]
      exact ⟨_, htracks, fun v hv => by linarith [habove v hv],
        fun v hv => by linarith [hroot v hv]⟩

/-- The significand is made so long that the whole part of its root has 53 bits, unless that is
counted in least units. -/
lemma sqrtCore_eq {m : ℕ} (hm : 0 < m) (k : ℕ) :
    ∃ j d : ℕ, UnpackedFloat.sqrtCore Format.binary64 m (k - 1074) =
        ((m * 2 ^ j).sqrt, (d : ℤ) - 1074,
          if m * 2 ^ j - (m * 2 ^ j).sqrt * (m * 2 ^ j).sqrt = 0 then .exact
          else .inexact (if m * 2 ^ j - (m * 2 ^ j).sqrt * (m * 2 ^ j).sqrt ≤ (m * 2 ^ j).sqrt
            then .lt else .gt)) ∧
      j + 2 * d = k + 1074 ∧ (d ≠ 0 → 2 ^ 52 ≤ (m * 2 ^ j).sqrt) := by
  obtain ⟨d, hd⟩ : ∃ d : ℕ, (d : ℤ) - 1074 =
      min (((k : ℤ) - 1074) / 2) (max ((m.log2 + k - 1072) / 2 - 53) (-1074)) :=
    ⟨(min (((k : ℤ) - 1074) / 2) (max ((m.log2 + k - 1072) / 2 - 53) (-1074)) + 1074).toNat,
      by omega⟩
  obtain ⟨j, hj⟩ : ∃ j : ℕ, j + 2 * d = k + 1074 := ⟨k + 1074 - 2 * d, by omega⟩
  refine ⟨j, d, ?_, hj, ?_⟩
  · have htarget : min (((k : ℤ) - 1074).ediv 2) (Format.binary64.targetExponent
        ((totalExponent m (k - 1074) + 1).ediv 2)) = d - 1074 := by
      have htotal : totalExponent m (k - 1074) + 1 = m.log2 + k - 1072 := by
        unfold totalExponent
        ring
      rw [targetExponent_of_total, htotal, hd]
      rfl
    have hshift : ((k : ℤ) - 1074 - 2 * (d - 1074)).toNat = j := by omega
    unfold UnpackedFloat.sqrtCore
    dsimp only
    rw [htarget, hshift, Nat.shiftLeft_eq]
  · intro hne
    rw [Nat.le_sqrt]
    calc 2 ^ 52 * 2 ^ 52 = 2 ^ 104 := (pow_add 2 52 52).symm
      _ ≤ 2 ^ (m.log2 + j) := Nat.pow_le_pow_right two_pos (by omega)
      _ = 2 ^ m.log2 * 2 ^ j := pow_add _ _ _
      _ ≤ m * 2 ^ j := Nat.mul_le_mul_right _ (Nat.log2_self_le hm.ne')

/-- How a size lies to others if it is nearest to the root of a quantity: as their squares lie to
the quantity, which is counted in units as small as the product of two counts. -/
def IsRoot (u n l : ℕ) : Prop :=
  ∀ v, IsSize v → (n * u ≤ v * v → l ≤ v) ∧ (v * v ≤ n * u → v ≤ l)

/-- The size that is nearest to a number between the sizes as the root is. A size in smaller units
than the root is counted in is below it. -/
lemma isRoot_of_nearest {n d r : ℕ} {q : ℚ} (hbelow : ∀ v : ℕ, n ≤ v * v → q ≤ v)
    (habove : ∀ v : ℕ, v * v ≤ n → (v : ℚ) ≤ q) (hlong : d ≠ 0 → 2 ^ 52 ≤ n.sqrt)
    (hr : NearestSize (q * 2 ^ d) r) : IsRoot (2 ^ d * 2 ^ d) n r := by
  have hunit : (0 : ℚ) < 2 ^ d := by positivity
  rintro v ⟨m, k, hfits, rfl⟩
  rcases Nat.lt_or_ge k d with hk | hk
  · have hlt : m * 2 ^ k < n.sqrt * 2 ^ d := by
      calc m * 2 ^ k < 2 ^ 52 * 2 ^ d := hfits.count_lt ⟨by norm_num, fun _ => le_rfl⟩ hk
        _ ≤ n.sqrt * 2 ^ d := Nat.mul_le_mul_right _ (hlong (by omega))
    refine ⟨fun hsquare => ?_, fun _ => hr.le_of_ge ⟨m, k, hfits, rfl⟩ ?_⟩
    · have hroots : n.sqrt * 2 ^ d * (n.sqrt * 2 ^ d) ≤ n * (2 ^ d * 2 ^ d) := by
        rw [mul_mul_mul_comm]
        exact Nat.mul_le_mul_right _ (Nat.sqrt_le n)
      exact absurd (hroots.trans hsquare) (Nat.mul_self_lt_mul_self hlt).not_ge
    · have hq : (n.sqrt : ℚ) ≤ q := habove _ (Nat.sqrt_le n)
      have hle : ((m * 2 ^ k : ℕ) : ℚ) ≤ (n.sqrt * 2 ^ d : ℕ) := by exact_mod_cast hlt.le
      refine hle.trans ?_
      push_cast
      gcongr
  · obtain ⟨i, rfl⟩ := Nat.exists_eq_add_of_le' hk
    have hsize : IsSize (m * 2 ^ (i + d)) := ⟨m, i + d, hfits, rfl⟩
    have hmultiple : m * 2 ^ (i + d) = m * 2 ^ i * 2 ^ d := by rw [pow_add, mul_assoc]
    have hpos : 0 < 2 ^ d * 2 ^ d := Nat.mul_pos (Nat.two_pow_pos d) (Nat.two_pow_pos d)
    rw [hmultiple] at hsize ⊢
    rw [mul_mul_mul_comm, Nat.mul_le_mul_right_iff hpos, Nat.mul_le_mul_right_iff hpos]
    refine ⟨fun hv => hr.le_of_le hsize ?_, fun hv => hr.le_of_ge hsize ?_⟩
    · have hq := hbelow _ hv
      push_cast at hq ⊢
      gcongr
    · have hq := habove _ hv
      push_cast at hq ⊢
      gcongr

/-- What a finite number that is not negative is unpacked as. -/
lemma unpack_of_size {x : Float} {n : ℕ} (hx : count? x = some (n : ℤ)) (hn : n < farCount) :
    (∃ s, x.toModel.unpack = .zero s ∧ n = 0) ∨
      ∃ (m k : ℕ) (h : 0 < m), x.toModel.unpack = .finite .positive m (k - 1074) h ∧
        n = m * 2 ^ k := by
  rcases unpack_of_finite hx (abs_natCast_lt_farCount.2 hn) with
    ⟨s, hs, hzero⟩ | ⟨s, m, k, hm, hs, -, -, hcount⟩
  · exact .inl ⟨s, hs, by exact_mod_cast hzero⟩
  · have hpos : 0 < m * 2 ^ k := Nat.mul_pos hm (Nat.two_pow_pos k)
    cases s with
    | negative =>
      dsimp only [Sign.apply] at hcount
      omega
    | positive => exact .inr ⟨m, k, hm, hs, Int.ofNat_inj.1 hcount⟩

/-- The root of a finite number that is not negative has a size that lies to others as the exact one
does. -/
lemma count?_sqrt {x : Float} {z : ℕ} (hx : count? x = some (z : ℤ)) (hz : z < farCount) :
    ∃ r, IsRoot oneCount z r ∧ count? x.sqrt = some ((min r farCount : ℕ) : ℤ) := by
  rw [float_sqrt_eq]
  rcases unpack_of_size hx hz with ⟨s, hs, rfl⟩ | ⟨m, k, hm, hs, rfl⟩
  · refine ⟨0, fun v _ => ⟨fun _ => Nat.zero_le v, fun hv => ?_⟩, ?_⟩
    · have hsquare : v * v ≤ 0 := hv.trans (Nat.zero_mul oneCount).le
      exact (mul_self_eq_zero.1 (Nat.le_zero.1 hsquare)).le
    · have hmin : min 0 farCount = 0 := Nat.zero_min farCount
      rw [hs, hmin]
      exact count?_pack_zero s
  obtain ⟨j, d, hcore, hunits, hlong⟩ := sqrtCore_eq hm k
  obtain ⟨q, htracks, hbelow, habove⟩ := exists_tracks_root (m * 2 ^ j)
  obtain ⟨r, hr, hwritten⟩ := count?_roundWithAccuracy (e := (d : ℤ) - 1074) .positive htracks
    (or_iff_not_imp_left.2 fun hshort => by
      have hd : d = 0 := by_contra fun hne => hshort (hlong hne)
      omega)
  rw [sub_add_cancel, zpow_natCast] at hr
  refine ⟨r, ?_, ?_⟩
  · have hunits' : m * 2 ^ k * oneCount = m * 2 ^ j * (2 ^ d * 2 ^ d) := by
      unfold oneCount
      rw [mul_assoc, mul_assoc, ← pow_add, ← pow_add, ← pow_add]
      congr 2
      unfold oneExponent
      omega
    intro v hv
    rw [hunits']
    exact isRoot_of_nearest hbelow habove hlong hr v hv
  · rw [hs]
    unfold UnpackedFloat.sqrt
    dsimp only
    rw [hcore]
    exact hwritten

end PointRelaxation.Binary64
