import PointRelaxation.Proofs.Binary64Nearest

/-!
# Roots of sums of squares

The square of a number can be infinite where the number is not, and so can a sum of squares. What
there is to say of a length that is computed from components holds of sizes: each rounding at most
doubles a quantity, as zero is a size, and at most halves it, as the powers of two are.

* `root_le_double`, `larger_le_quadruple_root`: the root of a rounded sum of squares is at most
  twice the larger component, and at least a quarter of it.
* `half_le_quotient`, `quotient_le`: what remains of a component that is divided by such a root.
-/

namespace PointRelaxation

namespace Binary64

open Float.Model
open UnpackedFloat (Sign)

/-! ## Sizes that are no more than infinite -/

namespace NearestSize

variable {q : ℚ} {r : ℕ}

/-- Zero is a size, so no quantity is rounded to more than its double. -/
lemma le_double (h : NearestSize q r) (hq : 0 ≤ q) : (r : ℚ) ≤ 2 * q := by
  have hnear := h.near isSize_zero
  rw [Nat.cast_zero, zero_sub, abs_neg, abs_of_nonneg hq] at hnear
  linarith [(abs_le.1 hnear).2]

/-- The next smaller power of two is a size, so no quantity of a unit is rounded to less than its
half. -/
lemma half_le (h : NearestSize q r) (hq : 1 ≤ q) : q / 2 ≤ r := by
  obtain ⟨n, hlow, hhigh⟩ := exists_nat_pow_near hq one_lt_two
  have hle : 2 ^ n ≤ r := h.le_of_ge (isSize_two_pow n) (by exact_mod_cast hlow)
  have hle' : (2 : ℚ) ^ n ≤ r := by exact_mod_cast hle
  rw [pow_succ] at hhigh
  linarith

end NearestSize

lemma rounded_natCast (n : ℕ) : rounded n = (min (keep n) farCount : ℕ) := by
  rcases Nat.eq_zero_or_pos n with rfl | hn
  · have hzero : keep 0 = 0 := keep_of_isSize isSize_zero
    rw [Nat.cast_zero, rounded_zero, hzero, Nat.zero_min, Nat.cast_zero]
  · exact rounded_apply .positive hn

lemma unpack_of_far {x : Float} (h : count? x = some (farCount : ℤ)) :
    x.toModel.unpack = .infinity .positive := by
  have hpos := farCount_pos
  rcases unpack_of_count h with ⟨s, hs, hcount⟩ | ⟨s, -, hcount⟩ | ⟨s, m, k, -, -, -, hlt, hcount⟩
  · cases s with
    | negative =>
      dsimp only [Sign.apply] at hcount
      omega
    | positive => exact hs
  · omega
  · have hsize := congrArg Int.natAbs hcount
    rw [natAbs_apply, Int.natAbs_natCast] at hsize
    omega

/-- The rounded sum of two sizes is infinite if one of them is. -/
lemma farCount_le_keep {n : ℕ} (h : farCount ≤ n) : farCount ≤ keep n := by
  have hfar : keep farCount = farCount := keep_of_isSize (isSize_two_pow farExponent)
  calc farCount = keep farCount := hfar.symm
    _ ≤ keep n := keep_mono h

/-- A size that is infinite by itself makes a sum so; in a finite sum there is none. -/
lemma keep_of_finite {q r : ℕ} (h : keep (min q farCount + min r farCount) < farCount) :
    keep (min q farCount + min r farCount) = keep (q + r) := by
  have hsum : min q farCount + min r farCount < farCount := by
    by_contra hfar
    exact absurd (farCount_le_keep (not_lt.1 hfar)) h.not_ge
  rw [min_eq_left (by omega : q ≤ farCount), min_eq_left (by omega : r ≤ farCount)]

/-- The sum of two numbers that are not negative, infinite ones among them. -/
lemma count?_add_of_nonneg {x y : Float} {i j : ℕ} (hx : count? x = some (i : ℤ))
    (hy : count? y = some (j : ℤ)) (hi : i ≤ farCount) (hj : j ≤ farCount) :
    count? (x + y) = some ((min (keep (i + j)) farCount : ℕ) : ℤ) := by
  have habs {n : ℕ} (hn : n < farCount) : |(n : ℤ)| < farCount := abs_natCast_lt_farCount.2 hn
  rcases hi.lt_or_eq with hi' | hi'
  · rcases hj.lt_or_eq with hj' | hj'
    · rw [count?_add hx hy (habs hi') (habs hj'), ← rounded_natCast, Nat.cast_add]
    · rw [min_eq_right (farCount_le_keep (hj'.ge.trans (Nat.le_add_left j i))), float_add_eq,
        unpack_of_far (hy.trans (by rw [hj']))]
      rcases unpack_of_finite hx (habs hi') with ⟨s, hs, -⟩ | ⟨s, m, k, hm, hs, -⟩
      · rw [hs]
        exact count?_pack_infinity .positive
      · rw [hs]
        exact count?_pack_infinity .positive
  · rw [min_eq_right (farCount_le_keep (hi'.ge.trans (Nat.le_add_right i j)))]
    rcases hj.lt_or_eq with hj' | hj'
    · rw [count?_add_of_far hx hy (by rw [hi', Nat.abs_cast]) (habs hj'), hi']
    · rw [float_add_eq, unpack_of_far (hx.trans (by rw [hi'])),
        unpack_of_far (hy.trans (by rw [hj']))]
      exact count?_pack_infinity .positive

/-- The size of a result that is not negative needs no sign. -/
lemma sign_mul_min {i : ℤ} {q : ℚ} {r : ℕ} (hi : 0 ≤ i) (hzero : i = 0 → q = 0)
    (hr : NearestSize q r) : i.sign * ((min r farCount : ℕ) : ℤ) = (min r farCount : ℕ) := by
  rcases hi.eq_or_lt with hi | hi
  · have hle : r ≤ 0 := hr.le_of_le isSize_zero (by rw [hzero hi.symm, Nat.cast_zero])
    rw [Nat.le_zero.1 hle, Nat.zero_min, Nat.cast_zero, mul_zero]
  · rw [Int.sign_eq_one_of_pos hi, one_mul]

/-- The square of a finite number. -/
lemma count?_mul_self {x : Float} {z : ℤ} (hx : count? x = some z) (hz : |z| < farCount) :
    ∃ q, NearestSize (z.natAbs * z.natAbs / oneCount) q ∧
      count? (x * x) = some ((min q farCount : ℕ) : ℤ) := by
  obtain ⟨q, hq, hcount⟩ := count?_mul hx hx hz hz
  refine ⟨q, hq, ?_⟩
  rw [hcount, sign_mul_min (mul_self_nonneg z) ?_ hq]
  intro hzero
  rw [mul_self_eq_zero.1 hzero, Int.natAbs_zero, Nat.cast_zero, zero_mul, zero_div]

/-- The root of an infinite number is infinite. -/
lemma count?_sqrt_of_far {x : Float} (hx : count? x = some (farCount : ℤ)) :
    count? x.sqrt = some (farCount : ℤ) := by
  rw [float_sqrt_eq, unpack_of_far hx]
  exact count?_pack_infinity .positive

/-- A finite number divided by an infinite one is zero. -/
lemma count?_div_of_far {x y : Float} {z : ℤ} (hx : count? x = some z) (hz : |z| < farCount)
    (hy : count? y = some (farCount : ℤ)) : count? (x / y) = some 0 := by
  rw [float_div_eq, unpack_of_far hy]
  rcases unpack_of_finite hx hz with ⟨s, hs, -⟩ | ⟨s, m, k, hm, hs, -⟩
  · rw [hs]
    exact count?_pack_zero _
  · rw [hs]
    exact count?_pack_zero _

/-! ## The root of a sum of squares -/

section

variable {u a b c n q r l : ℕ}

/-- The larger of two components has the larger square. -/
lemma larger_square_le (hu : 0 < u) (hb : b ≤ a) (hc : c ≤ a)
    (hq : NearestSize (b * b / u) q) (hr : NearestSize (c * c / u) r) :
    ((max q r : ℕ) : ℚ) ≤ 2 * (a * a / u) := by
  have hpos : (0 : ℚ) < u := Nat.cast_pos.2 hu
  have hdouble {b q : ℕ} (hb : b ≤ a) (hq : NearestSize (b * b / u) q) :
      (q : ℚ) ≤ 2 * (a * a / u) := by
    have hle : (b * b / u : ℚ) ≤ a * a / u := by gcongr
    exact (hq.le_double (by positivity)).trans (by linarith)
  rw [Nat.cast_max]
  exact max_le (hdouble hb hq) (hdouble hc hr)

/-- Squaring doubles a component at most, and so does adding the other square. -/
lemma root_le_double (hu : 0 < u) (ha : IsSize a) (hb : b ≤ a) (hc : c ≤ a)
    (hq : NearestSize (b * b / u) q) (hr : NearestSize (c * c / u) r)
    (hroot : IsRoot u (keep (q + r)) l) : l ≤ 2 * a := by
  have hpos : (0 : ℚ) < u := Nat.cast_pos.2 hu
  have hmax : keep (q + r) ≤ 2 * max q r := by
    have hsize : IsSize (2 * max q r) := (hq.isSize.max hr.isSize).double
    calc keep (q + r) ≤ keep (2 * max q r) := keep_mono (by omega)
      _ = 2 * max q r := keep_of_isSize hsize
  -- twice the component is a size, so it is enough to compare its square
  refine (hroot _ ha.double).1 ?_
  have hsum : (keep (q + r) : ℚ) * u ≤ 2 * a * (2 * a) := by
    have hmax' : (keep (q + r) : ℚ) ≤ 2 * (max q r : ℕ) := by exact_mod_cast hmax
    have hlarger := larger_square_le hu hb hc hq hr
    calc (keep (q + r) : ℚ) * u ≤ 2 * (2 * (a * a / u)) * u := by
          gcongr
          linarith
      _ = 2 * a * (2 * a) := by field_simp
  exact_mod_cast hsum

/-- A square that is no less than a unit is halved at most, and adding another loses nothing. -/
lemma le_quadruple_root (hu : 4 ≤ u) (ha : u ≤ a * a) (hq : NearestSize (a * a / u) q)
    (hle : q ≤ n) (hroot : IsRoot u (keep n) l) : a ≤ 4 * l := by
  have hpos : (0 : ℚ) < u := by
    have hpos' : 0 < u := by omega
    exact_mod_cast hpos'
  have hkeep : q ≤ keep n := by
    calc q = keep q := (keep_of_isSize hq.isSize).symm
      _ ≤ keep n := keep_mono hle
  have hhalf : (a : ℚ) * a / u / 2 ≤ q := by
    refine hq.half_le ?_
    rw [le_div_iff₀ hpos, one_mul]
    exact_mod_cast ha
  -- half the power of two below the component
  have hne : a ≠ 0 := by
    rintro rfl
    omega
  obtain ⟨i, hi⟩ : ∃ i, a.log2 = i + 1 := by
    refine Nat.exists_eq_succ_of_ne_zero ?_
    intro hzero
    have hlt : a < 2 ^ 1 := (Nat.log2_lt hne).1 (by omega)
    obtain rfl : a = 1 := by omega
    omega
  have hlow : 2 ^ (i + 1) ≤ a := hi ▸ Nat.log2_self_le hne
  have hhigh : a < 2 ^ (i + 1 + 1) := hi ▸ Nat.lt_log2_self
  rw [pow_succ] at hlow hhigh
  rw [pow_succ] at hhigh
  have hsquare : 2 ^ i * 2 ^ i ≤ keep n * u := by
    have hkeep' : (q : ℚ) ≤ keep n := by exact_mod_cast hkeep
    have hlow' : (2 : ℚ) ^ i * 2 ≤ a := by exact_mod_cast hlow
    have hscaled : (a : ℚ) * a / 2 ≤ keep n * u := by
      rw [div_div, div_le_iff₀ (by positivity)] at hhalf
      nlinarith
    have hle : (2 : ℚ) ^ i * 2 ^ i ≤ keep n * u := by
      have hpow : (0 : ℚ) ≤ 2 ^ i := by positivity
      nlinarith
    exact_mod_cast hle
  have hroot' := (hroot _ (isSize_two_pow i)).2 hsquare
  omega

/-- The larger component is at most four times a root that is not tiny. A square below the least
unit can be lost, but its component is shorter than `2 ^ 537`. -/
lemma larger_le_quadruple_root (hq : NearestSize (b * b / oneCount) q)
    (hr : NearestSize (c * c / oneCount) r) (hroot : IsRoot oneCount (keep (q + r)) l)
    (hlong : 2 ^ 537 ≤ l) : max b c ≤ 4 * l := by
  rcases Nat.lt_or_ge (max b c * max b c) oneCount with hs | hs
  · have hone : oneCount = 2 ^ 537 * 2 ^ 537 := by
      unfold oneCount
      rw [← pow_add]
      exact congrArg (2 ^ ·) (by decide : oneExponent = 537 + 537)
    rw [hone] at hs
    have hsmall := Nat.mul_self_lt_mul_self_iff.1 hs
    omega
  · have hfour : 2 ^ 2 ≤ oneCount := by
      unfold oneCount
      exact pow_le_pow_right₀ one_le_two (by decide : 2 ≤ oneExponent)
    rcases max_choice b c with h | h
    · rw [h] at hs ⊢
      exact le_quadruple_root hfour hs hq (Nat.le_add_right q r) hroot
    · rw [h] at hs ⊢
      exact le_quadruple_root hfour hs hr (Nat.le_add_left r q) hroot

/-- The root of a finite quantity is finite. -/
lemma root_lt_farCount (hn : n < farCount) (hroot : IsRoot oneCount n l) : l < farCount := by
  obtain ⟨e, he⟩ : ∃ e, e = 1586 := ⟨_, rfl⟩
  have hsquare : farCount * oneCount = 2 ^ e * 2 ^ e := by
    unfold farCount oneCount
    rw [← pow_add, ← pow_add, he]
    exact congrArg (2 ^ ·) (by decide : farExponent + oneExponent = 1586 + 1586)
  have hle : l ≤ 2 ^ e := by
    refine (hroot _ (isSize_two_pow e)).1 ?_
    rw [← hsquare]
    exact Nat.mul_le_mul_right _ hn.le
  have hlt : 2 ^ e < farCount := by
    have hexponent : e < farExponent := by
      rw [he]
      decide
    exact Nat.pow_lt_pow_right one_lt_two hexponent
  exact hle.trans_lt hlt

end

lemma abs_sign_mul_of_ne_zero {i : ℤ} (h : i ≠ 0) (n : ℕ) : |i.sign * n| = n := by
  rw [abs_mul, Nat.abs_cast, Int.abs_eq_natAbs, Int.natAbs_sign_of_ne_zero h, Nat.cast_one, one_mul]

lemma abs_sign_mul_le (i : ℤ) (n : ℕ) : |i.sign * n| ≤ n := by
  rcases eq_or_ne i 0 with rfl | h
  · rw [Int.sign_zero, zero_mul, abs_zero]
    exact Int.natCast_nonneg n
  · exact (abs_sign_mul_of_ne_zero h n).le

/-- The exponent of components whose squares are far from infinite, above that of the least unit. -/
def moderateExponent : ℕ := 1583

/-- The square of a component below a power of two. -/
lemma square_le {a q e f : ℕ} (hexponent : e + e = f + oneExponent) (ha : a ≤ 2 ^ e)
    (hq : NearestSize (a * a / oneCount) q) : q ≤ 2 ^ f := by
  refine hq.le_of_le (isSize_two_pow f) ?_
  rw [div_le_iff₀ (Nat.cast_pos.2 oneCount_pos)]
  have hsquare : a * a ≤ 2 ^ f * oneCount := by
    unfold oneCount
    calc a * a ≤ 2 ^ e * 2 ^ e := Nat.mul_le_mul ha ha
      _ = 2 ^ f * 2 ^ oneExponent := by rw [← pow_add, ← pow_add, hexponent]
  exact_mod_cast hsquare

/-- The count of a finite number is that of a size. -/
lemma isSize_of_count {x : Float} {z : ℤ} (hx : count? x = some z) (hz : |z| < farCount) :
    IsSize z.natAbs := by
  rcases unpack_of_finite hx hz with ⟨s, -, rfl⟩ | ⟨s, m, k, -, -, hfits, -, rfl⟩
  · exact isSize_zero
  · exact ⟨m, k, hfits, natAbs_apply s _⟩

/-- The exponent of a half, above that of the least unit. -/
def halfExponent : ℕ := 1073

/-- The size of a half, in least units. -/
@[irreducible] def halfCount : ℕ := 2 ^ halfExponent

lemma two_mul_halfCount : 2 * halfCount = oneCount := by
  unfold halfCount oneCount
  rw [← pow_succ']
  exact congrArg (2 ^ ·) (by decide : halfExponent + 1 = oneExponent)

lemma isSize_halfCount : IsSize halfCount := by
  unfold halfCount
  exact isSize_two_pow halfExponent

lemma halfCount_le_farCount : halfCount ≤ farCount := by
  unfold halfCount farCount
  exact pow_le_pow_right₀ one_le_two (by decide : halfExponent ≤ farExponent)

/-- The quotient by a length of at least a quarter is at most four. -/
lemma quotient_le {a n r : ℕ} (hn : 0 < n) (ha : a ≤ 4 * n)
    (hr : NearestSize (a / n * oneCount) r) : r ≤ 4 * oneCount := by
  have hfour : 4 * oneCount = 2 * (2 * oneCount) := by ring
  rw [hfour]
  refine hr.le_of_le isSize_oneCount.double.double ?_
  rw [← hfour]
  have hquotient : (a : ℚ) / n ≤ 4 := by
    rw [div_le_iff₀ (Nat.cast_pos.2 hn)]
    exact_mod_cast ha
  push_cast
  gcongr

/-- The quotient by a length of at most the double is at least a half. -/
lemma half_le_quotient {a n r : ℕ} (hn : 0 < n) (ha : n ≤ 2 * a)
    (hr : NearestSize (a / n * oneCount) r) : halfCount ≤ r := by
  refine hr.le_of_ge isSize_halfCount ?_
  have hquotient : (1 : ℚ) / 2 ≤ a / n := by
    rw [div_le_div_iff₀ two_pos (Nat.cast_pos.2 hn), one_mul, mul_comm]
    exact_mod_cast ha
  calc (halfCount : ℚ) = 1 / 2 * (2 * halfCount : ℕ) := by
        push_cast
        ring
    _ = 1 / 2 * oneCount := by rw [two_mul_halfCount]
    _ ≤ a / n * oneCount := by gcongr

lemma count?_scalar_abs {x : Float} {c : ℤ} (hx : count? x = some c) :
    count? (Scalar.abs x) = some |c| := by
  change count? x.abs = _
  rw [count?_abs, hx]
  rfl

lemma half_le_abs {x : Float} {c : ℤ} (hx : count? x = some c) (hc : halfCount ≤ |c|) :
    0.5 ≤ Scalar.abs x := by
  have hhalf : count? 0.5 = some (halfCount : ℤ) := by decide +kernel
  exact (le_iff_of_count hhalf (count?_scalar_abs hx)).2 hc

lemma same_zero_iff {x : Float} : Scalar.Same x 0.0 ↔ count? x = some 0 := by
  have hzero : count? 0.0 = some 0 := by decide +kernel
  refine ⟨count?_of_same hzero, fun hx => ?_⟩
  exact ⟨(le_iff_of_count hx hzero).2 le_rfl, (le_iff_of_count hzero hx).2 le_rfl⟩

end Binary64
end PointRelaxation
