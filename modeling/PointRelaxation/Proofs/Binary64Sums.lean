import PointRelaxation.Proofs.Binary64Sizes

/-!
# Sums and their order

Counted in least units, the sum of two finite numbers is the nearest count there is to the sum of
their counts, and an infinite number if that is too large. A larger sum never has a smaller nearest
count, so addition preserves the order of numbers although it rounds.

* `Binary64.count?_add`: the count of a sum.
* `Binary64.isFinite_iff_greatest`: the finite numbers are those between two of them.
* `MonotoneScalar`, `FlooredScalar`: scalars whose sums are ordered and rounded so.
-/

namespace PointRelaxation

namespace Binary64

open Float.Model
open UnpackedFloat (Sign)

/-! ## Sums -/

/-- What a number of some count is unpacked as. -/
lemma unpack_of_count {x : Float} {z : ℤ} (h : count? x = some z) :
    (∃ s, x.toModel.unpack = .infinity s ∧ z = s.apply farCount) ∨
    (∃ s, x.toModel.unpack = .zero s ∧ z = 0) ∨
      ∃ (s : Sign) (m k : ℕ) (h : 0 < m), x.toModel.unpack = .finite s m (k - 1074) h ∧
        Fits m k ∧ m * 2 ^ k < farCount ∧ z = s.apply (m * 2 ^ k : ℕ) := by
  unfold count? at h
  rcases hx : x.toModel.unpack with s | _ | s | ⟨s, m, e, hm⟩
  · rw [hx] at h
    exact .inl ⟨s, rfl, (Option.some.inj h).symm⟩
  · rw [hx] at h
    cases h
  · rw [hx] at h
    exact .inr (.inl ⟨s, rfl, (Option.some.inj h).symm⟩)
  · obtain ⟨k, rfl, hfits, hk⟩ := fits_unpack hx
    rw [hx, counted_finite] at h
    exact .inr (.inr ⟨s, m, k, hm, rfl, hfits, hfits.lt_farCount hk, (Option.some.inj h).symm⟩)

/-- A number of fewer least units than an infinite one is a zero or has a significand. -/
lemma unpack_of_finite {x : Float} {z : ℤ} (h : count? x = some z) (hz : |z| < farCount) :
    (∃ s, x.toModel.unpack = .zero s ∧ z = 0) ∨
      ∃ (s : Sign) (m k : ℕ) (h : 0 < m), x.toModel.unpack = .finite s m (k - 1074) h ∧
        Fits m k ∧ m * 2 ^ k < farCount ∧ z = s.apply (m * 2 ^ k : ℕ) := by
  refine (unpack_of_count h).resolve_left ?_
  rintro ⟨s, -, rfl⟩
  rw [abs_apply] at hz
  exact lt_irrefl _ hz

/-- What is unpacked from a number is written as a number of the same count. -/
lemma count?_pack_unpack (x : Float) : count? (.ofModel (.pack x.toModel.unpack)) = count? x := by
  change _ = counted x.toModel.unpack
  rcases hx : x.toModel.unpack with s | _ | s | ⟨s, m, e, hm⟩
  · exact count?_pack_infinity s
  · exact count?_pack_notANumber
  · exact count?_pack_zero s
  · obtain ⟨k, rfl, hfits, hk⟩ := fits_unpack hx
    rw [count?_pack_finite s hm hfits, counted_finite s k hm, min_eq_left (hfits.lt_farCount hk).le]

/-- A count that some number has is not rounded. -/
lemma rounded_of_count {x : Float} {z : ℤ} (h : count? x = some z) (hz : |z| < farCount) :
    rounded z = z := by
  rcases unpack_of_finite h hz with ⟨s, -, rfl⟩ | ⟨s, m, k, hm, -, hfits, hlt, rfl⟩
  · exact rounded_zero
  · rw [rounded_apply s (Nat.mul_pos hm (Nat.two_pow_pos k)), keep_of_isSize ⟨m, k, hfits, rfl⟩,
      min_eq_left hlt.le]

/-- In the smaller of two units both significands are whole. -/
lemma decreaseExponent_count (m : ℕ) {k j : ℕ} (hj : j ≤ k) :
    (UnpackedFloat.decreaseExponent m (k - 1074) (j - 1074)).1 * 2 ^ j = m * 2 ^ k := by
  have hshift : ((k : ℤ) - 1074 - (j - 1074)).toNat = k - j := by omega
  unfold UnpackedFloat.decreaseExponent
  dsimp only
  rw [hshift, Nat.shiftLeft_eq, mul_assoc, ← pow_add, Nat.sub_add_cancel hj]

/-- The sum of two finite numbers has the rounded sum of their counts. -/
lemma count?_add {x y : Float} {z w : ℤ} (hx : count? x = some z) (hy : count? y = some w)
    (hz : |z| < farCount) (hw : |w| < farCount) : count? (x + y) = some (rounded (z + w)) := by
  rw [float_add_eq]
  -- a zero is dropped, and what is left need not be rounded
  rcases unpack_of_finite hx hz with ⟨s, hs, rfl⟩ | ⟨s, m, k, hm, hs, -, -, rfl⟩
  · rw [zero_add, rounded_of_count hy hw, ← hy, ← count?_pack_unpack y, hs]
    rcases unpack_of_finite hy hw with ⟨s', hs', rfl⟩ | ⟨s', m', k', hm', hs', -, -, rfl⟩
    · rw [hs', count?_pack_zero]
      cases s <;> cases s' <;> exact count?_pack_zero _
    · rw [hs']
      rfl
  · rcases unpack_of_finite hy hw with ⟨s', hs', rfl⟩ | ⟨s', m', k', hm', hs', -, -, rfl⟩
    · rw [add_zero, rounded_of_count hx hz, ← hx, ← count?_pack_unpack x, hs, hs']
      rfl
    · -- in the smaller of both units the sum of the significands is exact
      have hmin : min ((k : ℤ) - 1074) (k' - 1074) = (min k k' : ℕ) - 1074 := by omega
      rw [hs, hs']
      change count? (.ofModel (.pack (UnpackedFloat.normalize Format.binary64
        (s.apply (UnpackedFloat.decreaseExponent m (k - 1074) (min (k - 1074 : ℤ) (k' - 1074))).1 +
          s'.apply (UnpackedFloat.decreaseExponent m' (k' - 1074)
            (min (k - 1074 : ℤ) (k' - 1074))).1)
        (min (k - 1074 : ℤ) (k' - 1074)) .positive))) = _
      rw [hmin, count?_normalize, add_mul, apply_mul, apply_mul]
      have hunits := decreaseExponent_count m (min_le_left k k')
      have hunits' := decreaseExponent_count m' (min_le_right k k')
      rw [← hunits, ← hunits']
      push_cast
      rfl

/-- A difference is the sum with the sign turned, also for the numbers that are not finite. -/
lemma float_sub_eq_add_neg (x y : Float) : x - y = x + -y := by
  rw [float_sub_eq, float_add_eq, unpack_neg]
  congr 2
  generalize x.toModel.unpack = a
  generalize y.toModel.unpack = b
  match a, b with
  | .notANumber, b => rfl
  | .infinity s, .notANumber | .zero s, .notANumber | .finite s .., .notANumber => rfl
  | .infinity s, .infinity t | .infinity s, .zero t | .zero s, .infinity t | .zero s, .zero t
  | .infinity s, .finite t .. | .finite s .., .infinity t | .zero s, .finite t ..
  | .finite s .., .zero t =>
    cases s <;> cases t <;> rfl
  | .finite s _ _ _, .finite t _ _ _ =>
    cases t with
    | negative =>
      change UnpackedFloat.normalize _ (_ - -_) _ _ = UnpackedFloat.normalize _ (_ + _) _ _
      rw [sub_neg_eq_add]
      rfl
    | positive => rfl

/-- The difference of two finite numbers has the rounded difference of their counts. -/
lemma count?_sub {x y : Float} {z w : ℤ} (hx : count? x = some z) (hy : count? y = some w)
    (hz : |z| < farCount) (hw : |w| < farCount) : count? (x - y) = some (rounded (z - w)) := by
  rw [float_sub_eq_add_neg, count?_add hx (count?_neg_of_count hy) hz (by rwa [abs_neg]),
    sub_eq_add_neg]

/-- An infinite number stays what it is when a finite one is added. -/
lemma count?_add_of_far {x y : Float} {z w : ℤ} (hx : count? x = some z) (hy : count? y = some w)
    (hz : farCount ≤ |z|) (hw : |w| < farCount) : count? (x + y) = some z := by
  have hinfinite : ∃ s, x.toModel.unpack = .infinity s ∧ z = s.apply farCount := by
    refine (unpack_of_count hx).resolve_right ?_
    rintro (⟨s, -, rfl⟩ | ⟨s, m, k, hm, -, -, hlt, rfl⟩)
    · rw [abs_zero] at hz
      exact absurd farCount_pos (by exact_mod_cast hz.not_gt)
    · rw [abs_apply] at hz
      exact absurd hlt (by exact_mod_cast hz.not_gt)
  obtain ⟨s, hs, hcount⟩ := hinfinite
  rw [float_add_eq, hs, hcount, ← count?_pack_infinity s]
  rcases unpack_of_finite hy hw with ⟨s', hs', -⟩ | ⟨s', m', k', hm', hs', -⟩
  · rw [hs']
    rfl
  · rw [hs']
    rfl

/-- The finite numbers are those of fewer least units than the infinite ones. -/
lemma isFinite_iff_count (x : Float) :
    Scalar.IsFinite x ↔ ∃ z, count? x = some z ∧ |z| < farCount := by
  have hself : Scalar.IsFinite x ↔ ∃ z, count? (x - x) = some z := by
    unfold Scalar.IsFinite Scalar.IsUndefined
    rw [not_not, float_le_iff_count]
    exact ⟨fun ⟨z, _, hz, _⟩ => ⟨z, hz⟩, fun ⟨z, hz⟩ => ⟨z, z, hz, hz, le_rfl⟩⟩
  rw [hself, float_sub_eq]
  unfold count?
  rcases hx : x.toModel.unpack with s | _ | s | ⟨s, m, e, hm⟩
  · refine iff_of_false ?_ ?_
    · rintro ⟨z, hz⟩
      cases s <;> exact Option.some_ne_none z (hz.symm.trans count?_pack_notANumber)
    · rintro ⟨z, hz, hlt⟩
      obtain rfl := Option.some.inj hz
      rw [abs_apply] at hlt
      exact lt_irrefl _ hlt
  · refine iff_of_false ?_ ?_
    · rintro ⟨z, hz⟩
      exact Option.some_ne_none z (hz.symm.trans count?_pack_notANumber)
    · rintro ⟨z, hz, -⟩
      cases hz
  · refine iff_of_true ?_ ⟨0, rfl, ?_⟩
    · cases s <;> exact ⟨0, count?_pack_zero _⟩
    · exact abs_zero_lt_farCount
  · obtain ⟨k, rfl, hfits, hk⟩ := fits_unpack hx
    refine iff_of_true ⟨0, ?_⟩ ⟨_, counted_finite s k hm, ?_⟩
    · -- the difference of equal significands is zero
      dsimp only [UnpackedFloat.sub]
      rw [sub_self]
      exact count?_pack_zero .positive
    · rw [abs_apply]
      exact_mod_cast hfits.lt_farCount hk

/-- The sum of any number and a finite one. -/
lemma exists_count_add {a x : Float} {i v : ℤ} (hi : count? a = some i) (hv : count? x = some v)
    (hfinite : |v| < farCount) : ∃ r, count? (a + x) = some r ∧
      (|i| < farCount ∧ r = rounded (i + v) ∨ farCount ≤ |i| ∧ r = i) := by
  rcases lt_or_ge |i| farCount with hi' | hi'
  · exact ⟨_, count?_add hi hv hi' hfinite, .inl ⟨hi', rfl⟩⟩
  · exact ⟨i, count?_add_of_far hi hv hi' hfinite, .inr ⟨hi', rfl⟩⟩

/-- Adding finite numbers preserves the order. -/
lemma float_add_le_add {a b x y : Float} (hab : a ≤ b) (hxy : x ≤ y) (hx : Scalar.IsFinite x)
    (hy : Scalar.IsFinite y) : a + x ≤ b + y := by
  obtain ⟨i, j, hi, hj, hij⟩ := (float_le_iff_count a b).1 hab
  obtain ⟨v, w, hv, hw, hvw⟩ := (float_le_iff_count x y).1 hxy
  have hvfinite : |v| < farCount := by
    obtain ⟨v', hv', hlt⟩ := (isFinite_iff_count x).1 hx
    rwa [Option.some.inj (hv.symm.trans hv')]
  have hwfinite : |w| < farCount := by
    obtain ⟨w', hw', hlt⟩ := (isFinite_iff_count y).1 hy
    rwa [Option.some.inj (hw.symm.trans hw')]
  obtain ⟨r, hr, hleft⟩ := exists_count_add hi hv hvfinite
  obtain ⟨r', hr', hright⟩ := exists_count_add hj hw hwfinite
  have hbi := abs_le.1 (abs_le_of_count hi)
  have hbj := abs_le.1 (abs_le_of_count hj)
  have hbr := abs_le.1 (abs_le_of_count hr)
  have hbr' := abs_le.1 (abs_le_of_count hr')
  refine (float_le_iff_count _ _).2 ⟨r, r', hr, hr', ?_⟩
  rcases hleft with ⟨hlt, hleft⟩ | ⟨hfar, rfl⟩
  · have hi' := abs_lt.1 hlt
    rcases hright with ⟨-, hright⟩ | ⟨hfar, rfl⟩
    · rw [hleft, hright]
      exact rounded_mono (add_le_add hij hvw)
    · -- an infinite number above a finite one is positive
      rcases le_abs.1 hfar with h | h <;> omega
  · rcases le_abs.1 hfar with h | h
    · -- above the largest number there is only itself
      rcases hright with ⟨hlt, -⟩ | ⟨-, rfl⟩
      · have hj' := abs_lt.1 hlt
        omega
      · omega
    · omega

/-- The sum with zero is the number itself. -/
lemma float_add_zero {a : Float} (ha : a ≤ a) : a ≤ a + 0.0 ∧ a + 0.0 ≤ a := by
  obtain ⟨i, -, hi, -⟩ := (float_le_iff_count a a).1 ha
  have hzero : count? 0.0 = some 0 := by decide +kernel
  have hsum : count? (a + 0.0) = some i := by
    obtain ⟨r, hr, ⟨hlt, rfl⟩ | ⟨-, rfl⟩⟩ := exists_count_add hi hzero abs_zero_lt_farCount
    · rw [hr, add_zero, rounded_of_count hi hlt]
    · exact hr
  exact ⟨(le_iff_of_count hi hsum).2 le_rfl, (le_iff_of_count hsum hi).2 le_rfl⟩

/-- What compares is a number. -/
lemma float_number_of_le {a b : Float} (h : a ≤ b) : a ≤ a ∧ b ≤ b := by
  obtain ⟨i, j, hi, hj, -⟩ := (float_le_iff_count a b).1 h
  exact ⟨(le_iff_of_count hi hi).2 le_rfl, (le_iff_of_count hj hj).2 le_rfl⟩

lemma float_neg_le_neg {a b : Float} (h : a ≤ b) : -b ≤ -a := by
  obtain ⟨i, j, hi, hj, hij⟩ := (float_le_iff_count a b).1 h
  exact (le_iff_of_count (count?_neg_of_count hj) (count?_neg_of_count hi)).2 (neg_le_neg hij)

/-! ## The largest number -/

/-- The largest finite number. -/
def greatest : Float := .ofBits 0x7FEFFFFFFFFFFFFF

/-- Its exponent, above that of the least unit. -/
def greatestExponent : ℕ := 2045

/-- Its size, in least units. -/
def greatestCount : ℕ := (2 ^ 53 - 1) * 2 ^ greatestExponent

lemma count?_greatest : count? greatest = some greatestCount := by
  decide +kernel

lemma Fits.le_greatestCount {m k : ℕ} (h : Fits m k) (hlt : m * 2 ^ k < farCount) :
    m * 2 ^ k ≤ greatestCount := by
  have hk : k ≤ greatestExponent := by
    by_contra hk
    unfold greatestExponent at hk
    exact absurd (h.farCount_le (by omega)) hlt.not_ge
  unfold greatestCount
  exact Nat.mul_le_mul (Nat.le_sub_one_of_lt h.short) (pow_le_pow_right₀ one_le_two hk)

/-- The finite numbers lie between the largest one and its negative. -/
lemma isFinite_iff_greatest (x : Float) :
    Scalar.IsFinite x ↔ -greatest ≤ x ∧ x ≤ greatest := by
  have hneg := count?_neg_of_count count?_greatest
  have hfar : greatestCount < farCount := by decide +kernel
  rw [isFinite_iff_count]
  constructor
  · rintro ⟨z, hz, hlt⟩
    have hbound : |z| ≤ greatestCount := by
      rcases unpack_of_finite hz hlt with ⟨s, -, rfl⟩ | ⟨s, m, k, hm, -, hfits, hlt', rfl⟩
      · rw [abs_zero]
        exact Int.natCast_nonneg _
      · rw [abs_apply]
        exact_mod_cast hfits.le_greatestCount hlt'
    rw [abs_le] at hbound
    exact ⟨(le_iff_of_count hneg hz).2 hbound.1, (le_iff_of_count hz count?_greatest).2 hbound.2⟩
  · rintro ⟨hlow, hhigh⟩
    obtain ⟨-, z, -, hz, -⟩ := (float_le_iff_count _ _).1 hlow
    rw [le_iff_of_count hneg hz] at hlow
    rw [le_iff_of_count hz count?_greatest] at hhigh
    refine ⟨z, hz, ?_⟩
    rw [abs_lt]
    omega

/-- A half more than a finite number is finite. -/
lemma isFinite_add_half {x : Float} (h : Scalar.IsFinite x) : Scalar.IsFinite (x + 0.5) := by
  have hhalf : Scalar.IsFinite (0.5 : Float) := by decide +kernel
  have hself : (0.5 : Float) ≤ 0.5 := by decide +kernel
  have hmost : greatest + 0.5 ≤ greatest := by decide +kernel
  have hleast : -greatest ≤ -greatest + 0.5 := by decide +kernel
  obtain ⟨hlow, hhigh⟩ := (isFinite_iff_greatest x).1 h
  exact (isFinite_iff_greatest _).2
    ⟨OrderedScalar.le_trans _ _ _ hleast (float_add_le_add hlow hself hhalf hhalf),
      OrderedScalar.le_trans _ _ _ (float_add_le_add hhigh hself hhalf hhalf) hmost⟩

/-- A finite number has a whole part. -/
lemma exists_floor {x : Float} (h : Scalar.IsFinite x) : ∃ n, floor x = .whole n := by
  obtain ⟨z, hz, hlt⟩ := (isFinite_iff_count x).1 h
  have hquantity : ∃ q, quantity? (ofFloat x) = some q := by
    rw [ofFloat_eq_ofUnpacked]
    rcases unpack_of_finite hz hlt with ⟨s, hs, -⟩ | ⟨s, m, k, hm, hs, -⟩
    · rw [hs]
      exact ⟨_, rfl⟩
    · rw [hs]
      exact ⟨_, rfl⟩
  obtain ⟨q, hq⟩ := hquantity
  exact ⟨⌊q⌋, floor_value hq⟩

end Binary64

/-! ## The laws of sums -/

/-- Scalars whose order is preserved when finite numbers are added and reversed when signs are
turned. -/
class MonotoneScalar (α : Type) [Scalar α] : Prop extends OrderedScalar α where
  number_of_le {a b : α} : a ≤ b → a ≤ a ∧ b ≤ b
  zero_le_zero : (0.0 : α) ≤ 0.0
  isFinite_zero : Scalar.IsFinite (0.0 : α)
  add_le_add {a b x y : α} : a ≤ b → x ≤ y → Scalar.IsFinite x → Scalar.IsFinite y →
    a + x ≤ b + y
  add_zero {a : α} : a ≤ a → a ≤ a + 0.0 ∧ a + 0.0 ≤ a
  neg_le_neg {a b : α} : a ≤ b → -b ≤ -a

/-- Scalars of which a finite one can be rounded to a whole number. -/
class FlooredScalar (α : Type) [Scalar α] : Prop where
  exists_floor {x : α} : Scalar.IsFinite x → ∃ n, Scalar.floor (x + 0.5) = .whole n

instance : MonotoneScalar Float where
  number_of_le := Binary64.float_number_of_le
  zero_le_zero := by decide +kernel
  isFinite_zero := by decide +kernel
  add_le_add := Binary64.float_add_le_add
  add_zero := Binary64.float_add_zero
  neg_le_neg := Binary64.float_neg_le_neg

instance : FlooredScalar Float where
  exists_floor h := Binary64.exists_floor (Binary64.isFinite_add_half h)

instance : MonotoneScalar Exact where
  number_of_le _ := ⟨le_refl (α := ℚ) _, le_refl (α := ℚ) _⟩
  zero_le_zero := le_refl (α := ℚ) _
  isFinite_zero := not_not.2 (le_refl (α := ℚ) _)
  add_le_add hab hxy _ _ := add_le_add (α := ℚ) hab hxy
  add_zero {a} _ := by
    have hsum (q : ℚ) : q + 0.0 = q := by norm_num
    exact ⟨le_of_eq (α := ℚ) (hsum a).symm, le_of_eq (α := ℚ) (hsum a)⟩
  neg_le_neg := neg_le_neg (α := ℚ)

instance : FlooredScalar Exact where
  exists_floor _ := ⟨_, rfl⟩

end PointRelaxation
