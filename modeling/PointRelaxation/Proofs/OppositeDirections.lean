import PointRelaxation.Proofs.Directions

/-!
# The angle between opposite directions

Opposite directions span no area and their product is negative, so the angle between them is half a
turn. To which side is told by the sign of the area, which is a zero. It is positive where the area
is the difference of two equal products. Where a component is zero, both products are, and the sign
of their difference is told by the signs of the factors.

* `Binary64.sub_self_eq`: the difference of a finite number and itself is the positive zero.
* `Vec.LandsBelow`: the opposite directions that are half a turn apart clockwise.
* `Vec.angleBetween_opposite`: the angle between any two opposite directions.
-/

namespace PointRelaxation

namespace Binary64

open Float.Model
open UnpackedFloat (Sign)

/-! ## The sign of a zero -/

/-- The zero of a sign. -/
def zeroOf (s : Sign) : Float := .ofModel (.pack (.zero s))

lemma unpack_zeroOf (s : Sign) : (zeroOf s).toModel.unpack = .zero s :=
  UnpackedFloat.unpack_packedZero

lemma zeroOf_positive : zeroOf .positive = 0.0 := by decide +kernel

lemma zeroOf_negative : zeroOf .negative = -0.0 := by decide +kernel

/-- There are two zeros. -/
lemma exists_zeroOf {x : Float} (hx : count? x = some 0) : ∃ s, x = zeroOf s := by
  rcases unpack_of_finite hx abs_zero_lt_farCount with
    ⟨s, hs, -⟩ | ⟨s, m, k, hm, -, -, -, hcount⟩
  · refine ⟨s, ?_⟩
    rw [← unpack_inj, unpack_zeroOf, hs]
  · have hpos : 0 < m * 2 ^ k := Nat.mul_pos hm (Nat.two_pow_pos k)
    cases s with
    | negative =>
      dsimp only [Sign.apply] at hcount
      omega
    | positive =>
      dsimp only [Sign.apply] at hcount
      omega

/-- The sign of a number that is not zero. -/
def signOf (z : ℤ) : Sign := if z < 0 then .negative else .positive

/-- The sign of a product with zero is the product of both signs. -/
lemma zeroOf_mul (s : Sign) {y : Float} {w : ℤ} (hy : count? y = some w) (hw : |w| < farCount)
    (hne : w ≠ 0) : zeroOf s * y = zeroOf (s * signOf w) := by
  rw [float_mul_eq, unpack_zeroOf]
  rcases unpack_of_finite hy hw with ⟨s', -, hzero⟩ | ⟨s', m, k, hm, hs', -, -, hcount⟩
  · exact absurd hzero hne
  have hpos : 0 < m * 2 ^ k := Nat.mul_pos hm (Nat.two_pow_pos k)
  have hsign : signOf w = s' := by
    unfold signOf
    cases s' with
    | negative =>
      dsimp only [Sign.apply] at hcount
      exact if_pos (by omega)
    | positive =>
      dsimp only [Sign.apply] at hcount
      exact if_neg (by omega)
  rw [hs', hsign]
  rfl

lemma signOf_neg {z : ℤ} (hz : z ≠ 0) : signOf (-z) = -signOf z := by
  unfold signOf
  rcases lt_or_gt_of_ne hz with h | h
  · rw [if_pos h, if_neg (by omega)]
    rfl
  · rw [if_pos (by omega), if_neg (by omega)]
    rfl

/-- Only the difference of the negative zero and the positive one is negative. -/
lemma zeroOf_sub {s t u : Sign} {p : Prop} [Decidable p] (hp : p ↔ s = u ∧ t = u) :
    zeroOf (s * -u) - zeroOf (t * u) = if p then -0.0 else 0.0 := by
  by_cases h : p
  · rw [if_pos h]
    obtain ⟨rfl, rfl⟩ := hp.1 h
    cases t <;> decide +kernel
  · rw [if_neg h]
    rw [hp] at h
    cases s <;> cases t <;> cases u <;> first | exact absurd ⟨rfl, rfl⟩ h | decide +kernel

lemma zeroOf_inj {s t : Sign} : zeroOf s = zeroOf t ↔ s = t := by
  refine ⟨fun h => ?_, congrArg zeroOf⟩
  have hunpack := unpack_inj.2 h
  rw [unpack_zeroOf, unpack_zeroOf] at hunpack
  exact UnpackedFloat.zero.inj hunpack

lemma zeroOf_ne {x : Float} {z : ℤ} (hx : count? x = some z) (hz : z ≠ 0) (s : Sign) :
    x ≠ zeroOf s := by
  rintro rfl
  exact hz (Option.some.inj (hx.symm.trans (count?_pack_zero s)))

/-- The side of zero on which a number is. -/
lemma lt_zero_iff {x : Float} {z : ℤ} (hx : count? x = some z) (hz : z ≠ 0) :
    (x < 0.0 ↔ signOf z = .negative) ∧ (0.0 < x ↔ signOf z = .positive) := by
  have hzero : count? 0.0 = some 0 := by decide +kernel
  have hsign : (signOf z = .negative ↔ z < 0) ∧ (signOf z = .positive ↔ 0 < z) := by
    unfold signOf
    rcases lt_or_gt_of_ne hz with h | h
    · rw [if_pos h]
      exact ⟨iff_of_true rfl h, iff_of_false Sign.noConfusion (by omega)⟩
    · rw [if_neg (by omega)]
      exact ⟨iff_of_false Sign.noConfusion (by omega), iff_of_true rfl h⟩
  rw [hsign.1, hsign.2]
  exact ⟨lt_iff_of_count hx hzero, lt_iff_of_count hzero hx⟩

/-- The difference of a finite number and itself is the positive zero. -/
lemma sub_self_eq {x : Float} {z : ℤ} (hx : count? x = some z) (hz : |z| < farCount) :
    x - x = 0.0 := by
  rw [float_sub_eq, ← zeroOf_positive]
  rcases unpack_of_finite hx hz with ⟨s, hs, -⟩ | ⟨s, m, k, hm, hs, -⟩
  · rw [hs]
    cases s <;> rfl
  · rw [hs]
    dsimp only [UnpackedFloat.sub]
    rw [sub_self]
    rfl

/-- The order of the factors does not matter. -/
lemma float_mul_comm (x y : Float) : x * y = y * x := by
  rw [float_mul_eq, float_mul_eq]
  congr 2
  generalize x.toModel.unpack = a
  generalize y.toModel.unpack = b
  match a, b with
  | .finite s m e _, .finite t m' e' _ =>
    have hsign : s * t = t * s := by cases s <;> cases t <;> rfl
    dsimp only [UnpackedFloat.mul]
    rw [hsign, Nat.mul_comm, Int.add_comm]
  | .notANumber, b => cases b <;> rfl
  | .infinity s, .notANumber | .zero s, .notANumber | .finite s .., .notANumber => rfl
  | .infinity s, .infinity t | .infinity s, .zero t | .zero s, .infinity t | .zero s, .zero t
  | .infinity s, .finite t .. | .finite s .., .infinity t | .zero s, .finite t ..
  | .finite s .., .zero t =>
    cases s <;> cases t <;> rfl

/-- The sign of a product moves from one factor to the other. -/
lemma float_mul_neg (x y : Float) : x * -y = -x * y := by
  rw [float_mul_eq, float_mul_eq, unpack_neg, unpack_neg]
  congr 2
  generalize x.toModel.unpack = a
  generalize y.toModel.unpack = b
  match a, b with
  | .notANumber, b => cases b <;> rfl
  | .infinity s, .notANumber | .zero s, .notANumber | .finite s .., .notANumber => rfl
  | .finite s .., .finite t .. | .infinity s, .infinity t | .infinity s, .zero t
  | .zero s, .infinity t | .zero s, .zero t | .infinity s, .finite t ..
  | .finite s .., .infinity t | .zero s, .finite t .. | .finite s .., .zero t =>
    cases s <;> cases t <;> rfl

/-! ## Products of components -/

/-- No product of components is infinite. -/
lemma product_le {a b r : ℕ} (ha : a ≤ 4 * oneCount) (hb : b ≤ 4 * oneCount)
    (hr : NearestSize (a * b / oneCount) r) : r ≤ 16 * oneCount := by
  have hsize : IsSize (16 * oneCount) := by
    have hdoubled := isSize_oneCount.double.double.double.double
    have hsixteen : 2 * (2 * (2 * (2 * oneCount))) = 16 * oneCount := by ring
    rwa [hsixteen] at hdoubled
  refine hr.le_of_le hsize ?_
  rw [div_le_iff₀ (Nat.cast_pos.2 oneCount_pos)]
  have hproduct : a * b ≤ 16 * oneCount * oneCount := by
    calc a * b ≤ 4 * oneCount * (4 * oneCount) := Nat.mul_le_mul ha hb
      _ = 16 * oneCount * oneCount := by ring
  exact_mod_cast hproduct

lemma oneCount_lt_farCount : 16 * oneCount < farCount := by
  unfold oneCount farCount
  calc 16 * 2 ^ oneExponent = 2 ^ (4 + oneExponent) := (pow_add 2 4 oneExponent).symm
    _ < 2 ^ farExponent := pow_lt_pow_right₀ one_lt_two (by decide)

lemma abs_lt_farCount {c : ℤ} (hc : |c| ≤ 4 * oneCount) : |c| < farCount := by
  have hfar := Int.ofNat_lt.2 oneCount_lt_farCount
  calc |c| ≤ 4 * oneCount := hc
    _ ≤ (16 * oneCount : ℕ) := by
        push_cast
        exact mul_le_mul_of_nonneg_right (by norm_num) (Int.natCast_nonneg _)
    _ < farCount := hfar

lemma count?_mul_components {x y : Float} {c d : ℤ} (hx : count? x = some c)
    (hy : count? y = some d) (hc : |c| ≤ 4 * oneCount) (hd : |d| ≤ 4 * oneCount) :
    ∃ r : ℕ, NearestSize (c.natAbs * d.natAbs / oneCount) r ∧
      count? (x * y) = some ((c * d).sign * r) ∧ r < farCount := by
  obtain ⟨r, hr, hcount⟩ := count?_mul hx hy (abs_lt_farCount hc) (abs_lt_farCount hd)
  have hbound {c : ℤ} (hc : |c| ≤ 4 * oneCount) : c.natAbs ≤ 4 * oneCount := by
    rw [Int.abs_eq_natAbs] at hc
    exact_mod_cast hc
  have hlt : r < farCount := (product_le (hbound hc) (hbound hd) hr).trans_lt oneCount_lt_farCount
  rw [Nat.min_eq_left hlt.le] at hcount
  exact ⟨r, hr, hcount, hlt⟩

/-- The square of a half is not rounded to zero. -/
lemma square_pos {a r : ℕ} (ha : halfCount ≤ a) (hr : NearestSize (a * a / oneCount) r) :
    0 < r := by
  refine hr.le_of_ge (isSize_two_pow 0) ?_
  rw [le_div_iff₀ (Nat.cast_pos.2 oneCount_pos)]
  have htwo : 2 ≤ halfCount := by
    unfold halfCount
    calc 2 = 2 ^ 1 := (pow_one 2).symm
      _ ≤ 2 ^ halfExponent := pow_le_pow_right₀ one_le_two (by decide)
  have hsquare : 1 * oneCount ≤ a * a := by
    calc 1 * oneCount = 2 * halfCount := by rw [one_mul, two_mul_halfCount]
      _ ≤ a * a := Nat.mul_le_mul (htwo.trans ha) ha
  exact_mod_cast hsquare

/-- The product of a component and its negative is not positive, and negative if the component is at
least a half. -/
lemma count?_mul_opposite {x y : Float} {c : ℤ} (hx : count? x = some c)
    (hy : count? y = some (-c)) (hc : |c| ≤ 4 * oneCount) :
    ∃ r : ℕ, count? (x * y) = some (-(r : ℤ)) ∧ r < farCount ∧ (halfCount ≤ |c| → 0 < r) := by
  obtain ⟨r, hr, hcount, hlt⟩ := count?_mul_components hx hy hc (by rwa [abs_neg])
  rw [Int.natAbs_neg] at hr
  refine ⟨r, ?_, hlt, ?_⟩
  · rw [hcount]
    rcases eq_or_ne c 0 with rfl | hne
    · have hzero : r ≤ 0 := hr.le_of_le isSize_zero
        (by rw [Int.natAbs_zero, Nat.cast_zero, zero_mul, zero_div])
      rw [Nat.le_zero.1 hzero, Nat.cast_zero, mul_zero, neg_zero]
    · have hsign : (c * -c).sign = -1 := by
        rw [mul_neg, Int.sign_neg, Int.sign_eq_one_of_pos (mul_self_pos.2 hne)]
      rw [hsign, neg_one_mul]
  · intro hhalf
    rw [Int.abs_eq_natAbs] at hhalf
    exact square_pos (Int.ofNat_le.1 hhalf) hr

/-- The sum of two numbers that are not positive, and not both zero, is negative. -/
lemma rounded_neg {n : ℕ} (hn : 0 < n) : rounded (-n) < 0 := by
  have hrounded : rounded (-n) = -(min (keep n) farCount : ℕ) := rounded_apply .negative hn
  have hkeep : 0 < keep n := by
    calc 0 < 2 ^ 0 := Nat.one_pos
      _ = keep (2 ^ 0) := (keep_of_isSize (isSize_two_pow 0)).symm
      _ ≤ keep n := keep_mono hn
  rw [hrounded, neg_lt_zero]
  exact Int.natCast_pos.2 (Nat.lt_min.2 ⟨hkeep, farCount_pos⟩)

end Binary64

namespace Vec

open Binary64
open Float.Model.UnpackedFloat (Sign)

variable {a b : Vec Float} {c d : ℤ}

/-- The second of two opposite directions lies clockwise of the first: one component of both is a
zero of the same sign, and the other component of the first has, on the vertical axis, that sign
and, on the horizontal axis, the other one. -/
def LandsBelow (a b : Vec Float) : Prop :=
  (a.x = 0.0 ∧ b.x = 0.0 ∧ 0.0 < a.y) ∨ (a.x = -0.0 ∧ b.x = -0.0 ∧ a.y < 0.0) ∨
    (a.y = 0.0 ∧ b.y = 0.0 ∧ a.x < 0.0) ∨ (a.y = -0.0 ∧ b.y = -0.0 ∧ 0.0 < a.x)

instance (a b : Vec Float) : Decidable (LandsBelow a b) :=
  inferInstanceAs (Decidable (_ ∨ _ ∨ _ ∨ _))

lemma landsBelow_iff : LandsBelow a b ↔
    (a.x = zeroOf .positive ∧ b.x = zeroOf .positive ∧ 0.0 < a.y) ∨
    (a.x = zeroOf .negative ∧ b.x = zeroOf .negative ∧ a.y < 0.0) ∨
    (a.y = zeroOf .positive ∧ b.y = zeroOf .positive ∧ a.x < 0.0) ∨
    (a.y = zeroOf .negative ∧ b.y = zeroOf .negative ∧ 0.0 < a.x) := by
  rw [zeroOf_positive, zeroOf_negative]
  rfl

/-- Components of opposite directions, counted. -/
structure Opposite (a b : Vec Float) (c d : ℤ) : Prop where
  firstX : count? a.x = some c
  firstY : count? a.y = some d
  secondX : count? b.x = some (-c)
  secondY : count? b.y = some (-d)
  boundX : |c| ≤ 4 * oneCount
  boundY : |d| ≤ 4 * oneCount
  long : halfCount ≤ |c| ∨ halfCount ≤ |d|

namespace Opposite

lemma symm (h : Opposite a b c d) : Opposite b a (-c) (-d) where
  firstX := h.secondX
  firstY := h.secondY
  secondX := by rw [neg_neg, h.firstX]
  secondY := by rw [neg_neg, h.firstY]
  boundX := by rw [abs_neg]; exact h.boundX
  boundY := by rw [abs_neg]; exact h.boundY
  long := by rw [abs_neg, abs_neg]; exact h.long

/-- The product of opposite directions is negative. -/
lemma dot_neg (h : Opposite a b c d) : dot a b < 0.0 := by
  obtain ⟨q, hq, hqlt, hqpos⟩ := count?_mul_opposite h.firstX h.secondX h.boundX
  obtain ⟨r, hr, hrlt, hrpos⟩ := count?_mul_opposite h.firstY h.secondY h.boundY
  have hbound {n : ℕ} (hn : n < farCount) : |-(n : ℤ)| < farCount := by
    rw [abs_neg]
    exact abs_natCast_lt_farCount.2 hn
  have hsum : count? (dot a b) = some (rounded (-(q + r : ℕ))) := by
    unfold dot
    rw [count?_add hq hr (hbound hqlt) (hbound hrlt), ← neg_add, Nat.cast_add]
  have hpos : 0 < q + r := by
    rcases h.long with hlong | hlong
    · exact Nat.add_pos_left (hqpos hlong) r
    · exact Nat.add_pos_right q (hrpos hlong)
  have hzero : count? 0.0 = some 0 := by decide +kernel
  exact (lt_iff_of_count hsum hzero).2 (rounded_neg hpos)

/-- Off the axes the area is the difference of equal products. -/
lemma cross_of_ne (h : Opposite a b c d) (hc : c ≠ 0) (hd : d ≠ 0) : cross a b = 0.0 := by
  have hx : b.x = -a.x := eq_of_count h.secondX (count?_neg_of_count h.firstX)
    (by rw [abs_neg]; exact abs_lt_farCount h.boundX) (neg_ne_zero.2 hc)
  have hy : b.y = -a.y := eq_of_count h.secondY (count?_neg_of_count h.firstY)
    (by rw [abs_neg]; exact abs_lt_farCount h.boundY) (neg_ne_zero.2 hd)
  obtain ⟨r, -, hr, hlt⟩ := count?_mul_components h.firstX h.secondY h.boundX
    (by rw [abs_neg]; exact h.boundY)
  unfold cross
  -- both products have the same factors up to their order and signs
  have hequal : a.y * b.x = a.x * b.y := by
    rw [hx, hy, float_mul_neg, float_mul_comm]
  rw [hequal]
  refine sub_self_eq hr ?_
  exact (abs_sign_mul_le _ _).trans_lt (Int.ofNat_lt.2 hlt)

/-- One of the components is not zero. -/
lemma height_ne_zero (h : Opposite a b 0 d) : d ≠ 0 := by
  rintro rfl
  have hlong := h.long
  rw [abs_zero, or_self] at hlong
  have hhalf : 0 < (halfCount : ℤ) := by
    unfold halfCount
    exact Int.natCast_pos.2 (Nat.two_pow_pos halfExponent)
  exact hlong.not_gt hhalf

/-- On the vertical axis the signs of both zeros and of the height are compared. -/
lemma landsBelow_vertical {s t : Sign} (h : Opposite a b 0 d) (hs : a.x = zeroOf s)
    (ht : b.x = zeroOf t) (hd : d ≠ 0) :
    LandsBelow a b ↔ s = signOf d ∧ t = signOf d := by
  have hay := zeroOf_ne h.firstY hd
  obtain ⟨hneg, hpos⟩ := lt_zero_iff h.firstY hd
  rw [landsBelow_iff, hs, ht, hneg, hpos, zeroOf_inj, zeroOf_inj, zeroOf_inj, zeroOf_inj]
  simp only [hay, false_and, or_false]
  cases signOf d <;> simp

/-- On the horizontal axis the signs of both zeros are compared to the turned sign of the base. -/
lemma landsBelow_horizontal {s t : Sign} (h : Opposite a b c 0) (hs : a.y = zeroOf s)
    (ht : b.y = zeroOf t) (hc : c ≠ 0) :
    LandsBelow a b ↔ t = -signOf c ∧ s = -signOf c := by
  have hax := zeroOf_ne h.firstX hc
  obtain ⟨hneg, hpos⟩ := lt_zero_iff h.firstX hc
  rw [landsBelow_iff, hs, ht, hneg, hpos, zeroOf_inj, zeroOf_inj, zeroOf_inj, zeroOf_inj]
  simp only [hax, false_and, false_or]
  have hsigns : -Sign.negative = .positive ∧ -Sign.positive = .negative := ⟨rfl, rfl⟩
  cases signOf c <;> simp [hsigns, and_comm]

/-- Off the axes no direction lands below. -/
lemma not_landsBelow (h : Opposite a b c d) (hc : c ≠ 0) (hd : d ≠ 0) : ¬ LandsBelow a b := by
  have hax := zeroOf_ne h.firstX hc
  have hay := zeroOf_ne h.firstY hd
  rw [landsBelow_iff]
  simp only [hax, hay, false_and, or_self, not_false_eq_true]

/-- The area that opposite directions span is a zero, negative where the second lands below. -/
lemma cross_eq (h : Opposite a b c d) :
    cross a b = if LandsBelow a b then -0.0 else 0.0 := by
  -- on an axis both products are zeros, whose signs are told by those of the factors
  rcases eq_or_ne c 0 with rfl | hc
  · have hd := h.height_ne_zero
    obtain ⟨s, hs⟩ := exists_zeroOf h.firstX
    obtain ⟨t, ht⟩ := exists_zeroOf h.secondX
    have hcross : cross a b = zeroOf (s * -signOf d) - zeroOf (t * signOf d) := by
      have hneg : |-d| < farCount := by
        rw [abs_neg]
        exact abs_lt_farCount h.boundY
      unfold cross
      rw [hs, zeroOf_mul s h.secondY hneg (neg_ne_zero.2 hd), signOf_neg hd, float_mul_comm a.y, ht,
        zeroOf_mul t h.firstY (abs_lt_farCount h.boundY) hd]
    rw [hcross]
    exact zeroOf_sub (h.landsBelow_vertical hs ht hd)
  · rcases eq_or_ne d 0 with rfl | hd
    · obtain ⟨s, hs⟩ := exists_zeroOf h.firstY
      obtain ⟨t, ht⟩ := exists_zeroOf h.secondY
      have hcross : cross a b = zeroOf (t * - -signOf c) - zeroOf (s * -signOf c) := by
        have hneg : |-c| < farCount := by
          rw [abs_neg]
          exact abs_lt_farCount h.boundX
        have hsign : - -signOf c = signOf c := by cases signOf c <;> rfl
        unfold cross
        rw [hs, zeroOf_mul s h.secondX hneg (neg_ne_zero.2 hc), signOf_neg hc, float_mul_comm a.x,
          ht, zeroOf_mul t h.firstX (abs_lt_farCount h.boundX) hc, hsign]
      rw [hcross]
      exact zeroOf_sub (h.landsBelow_horizontal hs ht hc)
    · rw [h.cross_of_ne hc hd, if_neg (h.not_landsBelow hc hd)]

end Opposite

/-! ## The angle -/

/-- How angles are measured in directions to the left without height: half a turn, to the side that
the sign of the height tells. -/
structure TurnsHalf (f : Float → Float → Float) : Prop where
  above (x : Float) : x < 0.0 → f 0.0 x = Scalar.pi
  below (x : Float) : x < 0.0 → f (-0.0) x = -Scalar.pi

/-- The arithmetic of floating point numbers with angles that are measured by `f`. -/
@[reducible] def measuredBy (f : Float → Float → Float) : Scalar Float :=
  { (inferInstance : Scalar Float) with atan2 := f }

example : measuredBy Float.atan2 = (inferInstance : Scalar Float) := rfl

lemma angleBetween_measuredBy (f : Float → Float → Float) {u v : Vec Float}
    (ha : normalize u = .ok a) (hb : normalize v = .ok b) :
    @angleBetween _ (measuredBy f) u v = .ok (f (cross a b) (dot a b)) := by
  have heq : @angleBetween _ (measuredBy f) u v =
      (normalize u >>= fun a => normalize v >>= fun b => .ok (f (cross a b) (dot a b))) := rfl
  rw [heq, ha, hb]
  rfl

/-- The components of vectors that are scaled to opposite ones. -/
lemma exists_opposite {u : Vec Float} (hu : u.IsFinite) (hsq : Scalar.IsFinite (normSq u))
    (ha : normalize u = .ok a) (hx : Scalar.Same b.x (-a.x)) (hy : Scalar.Same b.y (-a.y)) :
    ∃ c d, Opposite a b c d := by
  obtain ⟨c, d, hc, hd, hcfour, hdfour, hlong⟩ := count?_normalize hu hsq ha
  exact ⟨c, d, hc, hd, count?_of_same (count?_neg_of_count hc) hx,
    count?_of_same (count?_neg_of_count hd) hy, hcfour, hdfour, hlong⟩

/-- The angle of the area and the product of opposite directions. -/
lemma Opposite.angle {f : Float → Float → Float} (hf : TurnsHalf f) (h : Opposite a b c d) :
    f (cross a b) (dot a b) = if LandsBelow a b then -Scalar.pi else Scalar.pi := by
  rw [h.cross_eq]
  by_cases hbelow : LandsBelow a b
  · rw [if_pos hbelow, if_pos hbelow]
    exact hf.below _ h.dot_neg
  · rw [if_neg hbelow, if_neg hbelow]
    exact hf.above _ h.dot_neg

/-- Of two opposite directions at most one lands below the other. -/
lemma Opposite.not_both (h : Opposite a b c d) : ¬ (LandsBelow a b ∧ LandsBelow b a) := by
  have hturned (s : Sign) : s ≠ -s := by
    cases s <;> exact Sign.noConfusion
  -- seen from the second direction, the component that is not zero has the other sign
  rintro ⟨hab, hba⟩
  rcases eq_or_ne c 0 with rfl | hc
  · obtain ⟨s, hs⟩ := exists_zeroOf h.firstX
    obtain ⟨t, ht⟩ := exists_zeroOf h.secondX
    have hd := h.height_ne_zero
    have hforth := (h.landsBelow_vertical hs ht hd).1 hab
    have hback := (h.symm.landsBelow_vertical ht hs (neg_ne_zero.2 hd)).1 hba
    rw [signOf_neg hd] at hback
    exact hturned (signOf d) (hforth.1.symm.trans hback.2)
  · rcases eq_or_ne d 0 with rfl | hd
    · obtain ⟨s, hs⟩ := exists_zeroOf h.firstY
      obtain ⟨t, ht⟩ := exists_zeroOf h.secondY
      have hforth := (h.landsBelow_horizontal hs ht hc).1 hab
      have hback := (h.symm.landsBelow_horizontal ht hs (neg_ne_zero.2 hc)).1 hba
      rw [signOf_neg hc] at hback
      exact hturned (-signOf c) (hforth.1.symm.trans hback.2)
    · exact h.not_landsBelow hc hd hab

/-- Vectors that are scaled to opposite ones are half a turn apart, counter-clockwise unless the
second direction lands below the first. That does not happen both ways round; where it happens
neither way, rays in these directions can be exchanged. -/
theorem angleBetween_opposite (f : Float → Float → Float) (hf : TurnsHalf f) (u v a b : Vec Float)
    (hu : u.IsFinite) (hsq : Scalar.IsFinite (normSq u)) (ha : normalize u = .ok a)
    (hb : normalize v = .ok b) (hx : Scalar.Same b.x (-a.x)) (hy : Scalar.Same b.y (-a.y)) :
    @angleBetween _ (measuredBy f) u v =
      .ok (if LandsBelow a b then -Scalar.pi else Scalar.pi) ∧
    ¬ (LandsBelow a b ∧ LandsBelow b a) ∧
    ∀ p vertex q angle, between vertex p = u → between vertex q = v →
      ¬ LandsBelow a b → ¬ LandsBelow b a →
        @angleAt _ (measuredBy f) p vertex q = .ok Scalar.pi ∧
        @angleAt _ (measuredBy f) q vertex p = .ok Scalar.pi ∧
        @Score.atAngle _ (measuredBy f) angle p vertex q =
          @Score.atAngle _ (measuredBy f) angle q vertex p := by
  obtain ⟨c, d, h⟩ := exists_opposite hu hsq ha hx hy
  have hforth := angleBetween_measuredBy f ha hb
  have hback := angleBetween_measuredBy f hb ha
  rw [h.angle hf] at hforth
  rw [h.symm.angle hf] at hback
  refine ⟨hforth, h.not_both, ?_⟩
  intro p vertex q angle hp hq hab hba
  rw [if_neg hab] at hforth
  rw [if_neg hba] at hback
  have hpq : @angleAt _ (measuredBy f) p vertex q = .ok Scalar.pi := by
    rw [← hforth, ← hp, ← hq]
    rfl
  have hqp : @angleAt _ (measuredBy f) q vertex p = .ok Scalar.pi := by
    rw [← hback, ← hp, ← hq]
    rfl
  refine ⟨hpq, hqp, ?_⟩
  unfold Score.atAngle
  rw [hpq, hqp]

/-- The angle of a direction without height. -/
def axisAngle (height base : Float) : Float :=
  if base < 0.0 then if height = -0.0 then -Scalar.pi else Scalar.pi else height

lemma turnsHalf_axisAngle : TurnsHalf axisAngle where
  above x hx := by
    unfold axisAngle
    rw [if_pos hx, if_neg (by decide +kernel)]
  below x hx := by
    unfold axisAngle
    rw [if_pos hx, if_pos rfl]

theorem angleBetween_right_left :
    TurnsHalf axisAngle ∧
      @angleBetween _ (measuredBy axisAngle) ⟨1.0, 0.0⟩ ⟨-1.0, 0.0⟩ = .ok Scalar.pi := by
  have hright : normalize (⟨1.0, 0.0⟩ : Vec Float) = .ok ⟨1.0, 0.0⟩ :=
    eq_ok_of_toOption (by decide +kernel)
  have hleft : normalize (⟨-1.0, 0.0⟩ : Vec Float) = .ok ⟨-1.0, 0.0⟩ :=
    eq_ok_of_toOption (by decide +kernel)
  have hangle := (angleBetween_opposite axisAngle turnsHalf_axisAngle ⟨1.0, 0.0⟩ ⟨-1.0, 0.0⟩
    ⟨1.0, 0.0⟩ ⟨-1.0, 0.0⟩ (by decide +kernel) (by decide +kernel) hright hleft
    (by decide +kernel) (by decide +kernel)).1
  rw [if_neg (by decide +kernel)] at hangle
  exact ⟨turnsHalf_axisAngle, hangle⟩

/-- From the left to the right the area is the negative zero, and the angle is the open end of the
range. -/
theorem angleBetween_left_right :
    ¬ ∀ f, TurnsHalf f → ∀ u v a b : Vec Float, u.IsFinite → v.IsFinite →
      normalize u = .ok a → normalize v = .ok b →
      Scalar.Same b.x (-a.x) → Scalar.Same b.y (-a.y) →
        @angleBetween _ (measuredBy f) u v = .ok Scalar.pi := by
  intro hall
  have hleft : normalize (⟨-1.0, 0.0⟩ : Vec Float) = .ok ⟨-1.0, 0.0⟩ :=
    eq_ok_of_toOption (by decide +kernel)
  have hright : normalize (⟨1.0, 0.0⟩ : Vec Float) = .ok ⟨1.0, 0.0⟩ :=
    eq_ok_of_toOption (by decide +kernel)
  have hangle := hall axisAngle turnsHalf_axisAngle ⟨-1.0, 0.0⟩ ⟨1.0, 0.0⟩ ⟨-1.0, 0.0⟩ ⟨1.0, 0.0⟩
    (by decide +kernel) (by decide +kernel) hleft hright (by decide +kernel) (by decide +kernel)
  rw [angleBetween_measuredBy axisAngle hleft hright] at hangle
  have hbelow : axisAngle (cross ⟨-1.0, 0.0⟩ ⟨1.0, 0.0⟩) (dot ⟨-1.0, 0.0⟩ ⟨1.0, 0.0⟩) ≠
      Scalar.pi := by decide +kernel
  exact hbelow (Except.ok.inj hangle)

end Vec
end PointRelaxation
