import PointRelaxation.Proofs.Binary64Lengths
import PointRelaxation.Rule

/-!
# Vectors scaled to unit length

A vector is divided by its length, which is the root of a sum of squares. The squares of a vector
that is long enough are infinite, and so is its length then; what is left of the vector after the
division is zero. As long as the squared length is finite, each rounding loses so little that one of
the components is at least a half.

* `Vec.count?_norm_of_isFinite`: a length with a finite square lies between a quarter and twice the
  larger component.
* `Vec.count?_norm_of_not_isFinite`: any other length is infinite.
* `Vec.normalize_isLong`: what scaling makes of every vector of finite components.
-/

namespace PointRelaxation

namespace Vec

open Binary64

/-- Both components are finite. -/
def IsFinite {α : Type} [Scalar α] (v : Vec α) : Prop := Scalar.IsFinite v.x ∧ Scalar.IsFinite v.y

instance {α : Type} [Scalar α] (v : Vec α) : Decidable v.IsFinite :=
  inferInstanceAs (Decidable (_ ∧ _))

/-- One of the components is at least a half. -/
def IsLong {α : Type} [Scalar α] (v : Vec α) : Prop :=
  0.5 ≤ Scalar.abs v.x ∨ 0.5 ≤ Scalar.abs v.y

instance {α : Type} [Scalar α] (v : Vec α) : Decidable v.IsLong :=
  inferInstanceAs (Decidable (_ ∨ _))

/-- Both components are zero, of either sign. -/
def IsZero {α : Type} [Scalar α] (v : Vec α) : Prop :=
  Scalar.Same v.x 0.0 ∧ Scalar.Same v.y 0.0

/-! ## The length of a vector -/

variable {v : Vec Float} {z w : ℤ}

/-- The squared length of a vector. -/
lemma count?_normSq (hx : count? v.x = some z) (hy : count? v.y = some w) (hz : |z| < farCount)
    (hw : |w| < farCount) :
    ∃ q r, NearestSize (z.natAbs * z.natAbs / oneCount) q ∧
      NearestSize (w.natAbs * w.natAbs / oneCount) r ∧
      count? (normSq v) =
        some ((min (keep (min q farCount + min r farCount)) farCount : ℕ) : ℤ) := by
  obtain ⟨q, hq, hcountq⟩ := count?_mul_self hx hz
  obtain ⟨r, hr, hcountr⟩ := count?_mul_self hy hw
  exact ⟨q, r, hq, hr,
    count?_add_of_nonneg hcountq hcountr (Nat.min_le_right _ _) (Nat.min_le_right _ _)⟩

/-- If it is finite, so are the squares. -/
lemma count?_normSq_of_isFinite (hx : count? v.x = some z) (hy : count? v.y = some w)
    (hz : |z| < farCount) (hw : |w| < farCount) (hsq : Scalar.IsFinite (normSq v)) :
    ∃ q r, NearestSize (z.natAbs * z.natAbs / oneCount) q ∧
      NearestSize (w.natAbs * w.natAbs / oneCount) r ∧ keep (q + r) < farCount ∧
      count? (normSq v) = some ((keep (q + r) : ℕ) : ℤ) := by
  obtain ⟨q, r, hq, hr, hcount⟩ := count?_normSq hx hy hz hw
  obtain ⟨i, hi, hlt⟩ := (isFinite_iff_count _).1 hsq
  obtain rfl := Option.some.inj (hcount.symm.trans hi)
  have hfinite : keep (min q farCount + min r farCount) < farCount :=
    (min_lt_iff.1 (abs_natCast_lt_farCount.1 hlt)).resolve_right (lt_irrefl _)
  rw [min_eq_left hfinite.le, keep_of_finite hfinite] at hcount
  rw [keep_of_finite hfinite] at hfinite
  exact ⟨q, r, hq, hr, hfinite, hcount⟩

/-- A length of which the square is finite is no more than twice the larger component, and no less
than a quarter of that unless it is tiny. -/
lemma count?_norm_of_isFinite (hx : count? v.x = some z) (hy : count? v.y = some w)
    (hz : |z| < farCount) (hw : |w| < farCount) (hsq : Scalar.IsFinite (normSq v)) :
    ∃ l : ℕ, count? (norm v) = some (l : ℤ) ∧ l < farCount ∧
      l ≤ 2 * max z.natAbs w.natAbs ∧ (2 ^ 537 ≤ l → max z.natAbs w.natAbs ≤ 4 * l) := by
  obtain ⟨q, r, hq, hr, hlt, hcount⟩ := count?_normSq_of_isFinite hx hy hz hw hsq
  obtain ⟨l, hroot, hl⟩ := count?_sqrt hcount hlt
  have hllt := root_lt_farCount hlt hroot
  rw [min_eq_left hllt.le] at hl
  have hlarger := (isSize_of_count hx hz).max (isSize_of_count hy hw)
  refine ⟨l, hl, hllt, ?_, larger_le_quadruple_root hq hr hroot⟩
  exact root_le_double oneCount_pos hlarger (le_max_left _ _) (le_max_right _ _) hq hr hroot

/-- A length of which the square is not finite is infinite. -/
lemma count?_norm_of_not_isFinite (hx : count? v.x = some z) (hy : count? v.y = some w)
    (hz : |z| < farCount) (hw : |w| < farCount) (hsq : ¬ Scalar.IsFinite (normSq v)) :
    count? (norm v) = some (farCount : ℤ) := by
  obtain ⟨q, r, -, -, hcount⟩ := count?_normSq hx hy hz hw
  have hfar : farCount ≤ keep (min q farCount + min r farCount) := by
    by_contra hlt
    refine hsq ((isFinite_iff_count _).2 ⟨_, hcount, abs_natCast_lt_farCount.2 ?_⟩)
    exact (Nat.min_le_left _ _).trans_lt (not_le.1 hlt)
  rw [min_eq_right hfar] at hcount
  exact count?_sqrt_of_far hcount

/-- A component divided by a length of which it is neither more than four times nor less than a
half. -/
lemma count?_scaled {x l : Float} {n : ℕ} (hx : count? x = some z) (hz : |z| < farCount)
    (hl : count? l = some (n : ℤ)) (hn : n < farCount) (hpos : 0 < n) (hhigh : z.natAbs ≤ 4 * n) :
    ∃ c, count? (x / l) = some c ∧ |c| ≤ 4 * oneCount ∧ (n ≤ 2 * z.natAbs → halfCount ≤ |c|) := by
  obtain ⟨r, hr, hcount⟩ := count?_div hx hl hz (abs_natCast_lt_farCount.2 hn) (by omega)
  rw [Int.natAbs_natCast] at hr
  refine ⟨_, hcount, ?_, ?_⟩
  · have hle := (Nat.min_le_left r farCount).trans (quotient_le hpos hhigh hr)
    exact (abs_sign_mul_le _ _).trans (Int.ofNat_le.2 hle)
  · intro hlow
    have hne : z ≠ 0 := by
      rintro rfl
      rw [Int.natAbs_zero] at hlow
      omega
    rw [abs_sign_mul_of_ne_zero (mul_ne_zero hne (by omega))]
    exact Int.ofNat_le.2 (Nat.le_min.2 ⟨half_le_quotient hpos hlow hr, halfCount_le_farCount⟩)

lemma count?_shortest : ∃ n : ℕ, count? shortest = some (n : ℤ) ∧ 2 ^ 537 ≤ n ∧ n < farCount :=
  ⟨4951760157141521 * 2 ^ 982, by decide +kernel, by decide +kernel, by decide +kernel⟩

/-- What is left of a vector of finite squared length. -/
lemma count?_normalize {u : Vec Float} (h : v.IsFinite) (hsq : Scalar.IsFinite (normSq v))
    (hu : normalize v = .ok u) :
    ∃ c d, count? u.x = some c ∧ count? u.y = some d ∧ |c| ≤ 4 * oneCount ∧ |d| ≤ 4 * oneCount ∧
      (halfCount ≤ |c| ∨ halfCount ≤ |d|) := by
  obtain ⟨z, hx, hz⟩ := (isFinite_iff_count v.x).1 h.1
  obtain ⟨w, hy, hw⟩ := (isFinite_iff_count v.y).1 h.2
  obtain ⟨n, hn, htiny, -⟩ := count?_shortest
  obtain ⟨l, hl, hlt, hdouble, hquarter⟩ := count?_norm_of_isFinite hx hy hz hw hsq
  unfold normalize at hu
  dsimp only at hu
  split_ifs at hu with hshort
  obtain rfl := Except.ok.inj hu
  rw [le_iff_of_count hl hn] at hshort
  -- what passes the guard is long enough that no square was lost
  have hmax : max z.natAbs w.natAbs ≤ 4 * l := hquarter (by omega)
  obtain ⟨c, hc, hcfour, hchalf⟩ := count?_scaled hx hz hl hlt (by omega)
    ((le_max_left _ _).trans hmax)
  obtain ⟨d, hd, hdfour, hdhalf⟩ := count?_scaled hy hw hl hlt (by omega)
    ((le_max_right _ _).trans hmax)
  refine ⟨c, d, hc, hd, hcfour, hdfour, ?_⟩
  rcases max_choice z.natAbs w.natAbs with hlarger | hlarger
  · exact .inl (hchalf (hlarger ▸ hdouble))
  · exact .inr (hdhalf (hlarger ▸ hdouble))

/-- Nothing is left of a vector of infinite squared length. -/
lemma normalize_of_infinite (h : v.IsFinite) (hsq : ¬ Scalar.IsFinite (normSq v)) :
    ∃ u, normalize v = .ok u ∧ u.IsZero := by
  obtain ⟨z, hx, hz⟩ := (isFinite_iff_count v.x).1 h.1
  obtain ⟨w, hy, hw⟩ := (isFinite_iff_count v.y).1 h.2
  obtain ⟨n, hn, -, hlt⟩ := count?_shortest
  have hl := count?_norm_of_not_isFinite hx hy hz hw hsq
  have hlong : ¬ norm v ≤ shortest := by
    rw [le_iff_of_count hl hn]
    exact (Int.ofNat_lt.2 hlt).not_ge
  refine ⟨⟨v.x / norm v, v.y / norm v⟩, if_neg hlong, ?_, ?_⟩
  · exact same_zero_iff.2 (count?_div_of_far hx hz hl)
  · exact same_zero_iff.2 (count?_div_of_far hy hw hl)

/-- A component of at most `1e153`. -/
lemma natAbs_le_of_moderate {x : Float} (hx : count? x = some z) (hmost : Scalar.abs x ≤ 1e153) :
    z.natAbs ≤ 2 ^ moderateExponent := by
  have hcount : count? 1e153 = some ((5374300886053671 * 2 ^ 1530 : ℕ) : ℤ) := by decide +kernel
  have hbound : 5374300886053671 * 2 ^ 1530 ≤ 2 ^ moderateExponent := by decide +kernel
  rw [le_iff_of_count (count?_scalar_abs hx) hcount, Int.abs_eq_natAbs] at hmost
  exact (Int.ofNat_le.1 hmost).trans hbound

/-- The squared length of a vector of moderate components is finite. -/
lemma isFinite_normSq (h : v.IsFinite) (hxmost : Scalar.abs v.x ≤ 1e153)
    (hymost : Scalar.abs v.y ≤ 1e153) : Scalar.IsFinite (normSq v) := by
  obtain ⟨z, hx, hz⟩ := (isFinite_iff_count v.x).1 h.1
  obtain ⟨w, hy, hw⟩ := (isFinite_iff_count v.y).1 h.2
  obtain ⟨q, r, hq, hr, hsq⟩ := count?_normSq hx hy hz hw
  obtain ⟨f, hf⟩ : ∃ f,
      moderateExponent + moderateExponent = f + oneExponent ∧ f + 1 < farExponent :=
    ⟨2092, by decide⟩
  have hqle := square_le hf.1 (natAbs_le_of_moderate hx hxmost) hq
  have hrle := square_le hf.1 (natAbs_le_of_moderate hy hymost) hr
  rw [isFinite_iff_count]
  refine ⟨_, hsq, abs_natCast_lt_farCount.2 ((Nat.min_le_left _ _).trans_lt ?_)⟩
  have hsum : min q farCount + min r farCount ≤ 2 ^ (f + 1) := by
    rw [pow_succ, mul_two]
    exact Nat.add_le_add ((Nat.min_le_left _ _).trans hqle) ((Nat.min_le_left _ _).trans hrle)
  calc keep (min q farCount + min r farCount) ≤ keep (2 ^ (f + 1)) := keep_mono hsum
    _ = 2 ^ (f + 1) := keep_of_isSize (isSize_two_pow _)
    _ < farCount := Nat.pow_lt_pow_right one_lt_two hf.2

/-- A zero vector spans no area with any finite vector. -/
lemma lowestAbs_cross_isZero {u : Vec Float} (hu : u.IsZero) (h : v.IsFinite) :
    Scalar.Same (Score.lowestAbs (cross u v)) 0.0 := by
  have hproduct {x y : Float} (hx : Scalar.Same x 0.0) (hy : Scalar.IsFinite y) :
      count? (x * y) = some 0 := by
    obtain ⟨c, hc, hlt⟩ := (isFinite_iff_count y).1 hy
    obtain ⟨r, -, hr⟩ := count?_mul (same_zero_iff.1 hx) hc abs_zero_lt_farCount hlt
    rw [hr, zero_mul, Int.sign_zero, zero_mul]
  have hcross : count? (cross u v) = some 0 := by
    unfold cross
    rw [count?_sub (hproduct hu.1 h.2) (hproduct hu.2 h.1) abs_zero_lt_farCount
      abs_zero_lt_farCount, sub_zero, rounded_zero]
  rw [same_zero_iff]
  exact count?_neg_of_count (count?_scalar_abs hcross)

/-! ## Directions -/

/-- A vector of finite components is too short to have a direction, is scaled to one of which a
component is at least a half, or has an infinite squared length; then the zero vector is left of it,
and every position is on the line in its direction. Components of up to `1e153` have finite
squares. -/
theorem normalize_isLong (v : Vec Float) (h : v.IsFinite) :
    (Scalar.IsFinite (normSq v) →
      normalize v = .error (.zeroLength v) ∨ ∃ u, normalize v = .ok u ∧ u.IsLong) ∧
    (¬ Scalar.IsFinite (normSq v) → ∃ u, normalize v = .ok u ∧ u.IsZero) ∧
    (Scalar.abs v.x ≤ 1e153 → Scalar.abs v.y ≤ 1e153 → Scalar.IsFinite (normSq v)) ∧
    ∀ p a b s, between a b = v → Score.alignedWith p a b = .ok s →
      (Scalar.IsFinite (normSq v) → ∃ u, normalize v = .ok u ∧ u.IsLong ∧
        s = Score.lowestAbs (cross u (between a p))) ∧
      (¬ Scalar.IsFinite (normSq v) → (between a p).IsFinite → Scalar.Same s 0.0) := by
  have hlong {u : Vec Float} (hsq : Scalar.IsFinite (normSq v)) (hu : normalize v = .ok u) :
      u.IsLong := by
    obtain ⟨c, d, hc, hd, -, -, hhalf⟩ := count?_normalize h hsq hu
    rcases hhalf with hhalf | hhalf
    · exact .inl (half_le_abs hc hhalf)
    · exact .inr (half_le_abs hd hhalf)
  refine ⟨?_, normalize_of_infinite h, isFinite_normSq h, ?_⟩
  · intro hsq
    rcases hu : normalize v with e | u
    · refine .inl ?_
      unfold normalize at hu
      dsimp only at hu
      split_ifs at hu
      exact hu.symm
    · exact .inr ⟨u, rfl, hlong hsq hu⟩
  · intro p a b s hab hs
    obtain ⟨u, hu, hs⟩ := bind_eq_ok.1 hs
    rw [hab] at hu
    obtain rfl := Except.ok.inj hs
    constructor
    · intro hsq
      exact ⟨u, hu, hlong hsq hu, rfl⟩
    · intro hsq hp
      obtain ⟨u', hu', hzero⟩ := normalize_of_infinite h hsq
      obtain rfl := Except.ok.inj (hu.symm.trans hu')
      exact lowestAbs_cross_isZero hzero hp

theorem normalize_three_four :
    IsFinite ⟨3.0, 4.0⟩ ∧ Scalar.IsFinite (normSq ⟨3.0, 4.0⟩) ∧
      ∃ u : Vec Float, normalize ⟨3.0, 4.0⟩ = .ok u ∧ u.IsLong := by
  have hfinite : IsFinite (⟨3.0, 4.0⟩ : Vec Float) := by decide +kernel
  have hsq : Scalar.IsFinite (normSq (⟨3.0, 4.0⟩ : Vec Float)) := by decide +kernel
  have hsome : (normalize (⟨3.0, 4.0⟩ : Vec Float)).toOption.isSome = true := by decide +kernel
  refine ⟨hfinite, hsq, ((normalize_isLong ⟨3.0, 4.0⟩ hfinite).1 hsq).resolve_left ?_⟩
  intro herror
  rw [herror] at hsome
  exact Bool.false_ne_true hsome

/-- The square of `1e200` is infinite, and the direction of the vector is lost. -/
theorem normalize_far :
    ¬ ∀ v : Vec Float, v.IsFinite →
      normalize v = .error (.zeroLength v) ∨ ∃ u, normalize v = .ok u ∧ u.IsLong := by
  intro hall
  have hfinite : IsFinite (⟨1e200, 0.0⟩ : Vec Float) := by decide +kernel
  have hshort :
      (normalize (⟨1e200, 0.0⟩ : Vec Float)).toOption.any (fun u => ¬ u.IsLong) = true := by
    decide +kernel
  rcases hall ⟨1e200, 0.0⟩ hfinite with herror | ⟨u, hu, hlong⟩
  · rw [herror] at hshort
    exact Bool.false_ne_true hshort
  · rw [hu] at hshort
    exact of_decide_eq_true hshort hlong

end Vec
end PointRelaxation
