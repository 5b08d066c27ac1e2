import PointRelaxation.Proofs.Binary64Counts

/-!
# Rounding a size

An operation rounds to the nearest number there is. Of a size in least units 53 bits are kept, which
is the nearest size that some number has; so sizes are rounded in their order, and a size that a
number has is not rounded at all. That holds for short sizes as well, of which all bits are kept.

* `NearestSize`: what an operation rounds to.
* `keep_near`: no size is nearer than that which is kept.
* `keep_mono`: rounding preserves the order of sizes.
* `count?_normalize`: the operations keep what is said here.
-/

namespace PointRelaxation.Binary64

open Float.Model
open UnpackedFloat (Sign ExtendedMantissa Accuracy)

/-! ## The nearest size -/

/-- A size that some number has. -/
def IsSize (w : ℕ) : Prop := ∃ m k, Fits m k ∧ w = m * 2 ^ k

/-- A size that some number has, and than which no such size is nearer to a quantity. -/
structure NearestSize (q : ℚ) (r : ℕ) : Prop where
  isSize : IsSize r
  near : ∀ {w : ℕ}, IsSize w → |(r : ℚ) - q| ≤ |(w : ℚ) - q|

/-- When a carry is cleared the significand fits. -/
lemma exists_fits_carry {m d : ℕ} (hshort : m ≤ 2 ^ 53) (hlong : d ≠ 0 → 2 ^ 52 ≤ m) :
    ∃ k : ℕ, (carry m (d - 1074)).2 = k - 1074 ∧ Fits (carry m (d - 1074)).1 k ∧
      (carry m (d - 1074)).1 * 2 ^ k = m * 2 ^ d := by
  unfold carry
  split_ifs with hcarry
  · refine ⟨d + 1, ?_, ⟨by norm_num, fun _ => le_rfl⟩, ?_⟩
    · push_cast
      ring
    · rw [hcarry]
      ring
  · exact ⟨d, rfl, ⟨by omega, hlong⟩, rfl⟩

/-- Among the multiples of its last place the nearest significand is the nearest. -/
lemma near_multiple {q : ℚ} {m d : ℕ} (hnear : |(m : ℚ) - q / 2 ^ d| ≤ 1 / 2) (n : ℕ) :
    |((m * 2 ^ d : ℕ) : ℚ) - q| ≤ |((n * 2 ^ d : ℕ) : ℚ) - q| := by
  have hunit : (0 : ℚ) < 2 ^ d := by positivity
  have hdistance (a : ℕ) : |((a * 2 ^ d : ℕ) : ℚ) - q| = |(a : ℚ) - q / 2 ^ d| * 2 ^ d := by
    rw [← abs_of_pos hunit, ← abs_mul, abs_of_pos hunit, sub_mul, div_mul_cancel₀ _ hunit.ne']
    push_cast
    rfl
  rw [hdistance, hdistance]
  refine mul_le_mul_of_nonneg_right ?_ hunit.le
  rcases eq_or_ne n m with rfl | hne
  · exact le_rfl
  · -- another multiple is at least one unit away from the nearest
    have hapart : (1 : ℚ) ≤ |(n : ℚ) - m| := by
      have hsub : (n : ℤ) - m ≠ 0 := sub_ne_zero.2 (by exact_mod_cast hne)
      exact_mod_cast Int.one_le_abs hsub
    have htriangle := abs_sub_le (n : ℚ) (q / 2 ^ d) m
    rw [abs_sub_comm (q / 2 ^ d : ℚ)] at htriangle
    linarith

/-- The nearest significand of a quantity of 53 bits has as many. -/
lemma bits_of_near {q : ℚ} {m d : ℕ} (hnear : |(m : ℚ) - q / 2 ^ d| ≤ 1 / 2)
    (hlong : ((2 ^ 52 * 2 ^ d : ℕ) : ℚ) ≤ q) : 2 ^ 52 ≤ m := by
  refine le_of_near hnear ?_
  rw [le_div_iff₀ (by positivity)]
  exact_mod_cast hlong

/-- A significand of 53 bits that is off by at most a half of its last place makes the nearest size,
and so does a shorter one at the least exponent. -/
lemma nearestSize_of_near {q : ℚ} {m d : ℕ} (hnear : |(m : ℚ) - q / 2 ^ d| ≤ 1 / 2)
    (hshort : m ≤ 2 ^ 53) (hlong : d ≠ 0 → ((2 ^ 52 * 2 ^ d : ℕ) : ℚ) ≤ q) :
    NearestSize q (m * 2 ^ d) := by
  obtain ⟨k, -, hfits, hsize⟩ := exists_fits_carry hshort fun hd => bits_of_near hnear (hlong hd)
  refine ⟨⟨_, k, hfits, hsize.symm⟩, ?_⟩
  rintro w ⟨n, j, hw, rfl⟩
  rcases Nat.lt_or_ge j d with hj | hj
  · -- a size of smaller units is below the least one of the units that are kept
    have hleast := hlong (by omega)
    have hbelow : n * 2 ^ j < 2 ^ 52 * 2 ^ d := hw.count_lt ⟨by norm_num, fun _ => le_rfl⟩ hj
    refine (near_multiple hnear (2 ^ 52)).trans ?_
    have hlt : ((n * 2 ^ j : ℕ) : ℚ) < (2 ^ 52 * 2 ^ d : ℕ) := by exact_mod_cast hbelow
    rw [abs_of_nonpos (by linarith), abs_of_nonpos (by linarith)]
    linarith
  · obtain ⟨i, rfl⟩ := Nat.exists_eq_add_of_le' hj
    have hmultiple := near_multiple hnear (n * 2 ^ i)
    rwa [mul_assoc, ← pow_add] at hmultiple

/-! ## Rounding a size -/

/-- The number of places of a size that are dropped when 53 bits are kept. -/
def dropped (n : ℕ) : ℕ := n.log2 - 52

/-- The significand that is kept of a size. It may have carried into a bit of its own. -/
def kept (n : ℕ) : ℕ :=
  (ExtendedMantissa.ofMantissaAndAccuracy n .exact >>> dropped n).roundedMantissa

/-- A size with the dropped places made zeros. -/
def keep (n : ℕ) : ℕ := kept n * 2 ^ dropped n

/-- A long size has the bits that are kept before those that are dropped. -/
lemma dropped_bounds {n : ℕ} (h : dropped n ≠ 0) :
    2 ^ 52 * 2 ^ dropped n ≤ n ∧ n < 2 ^ 53 * 2 ^ dropped n := by
  have hlog : n.log2 = 52 + dropped n := by
    unfold dropped at h ⊢
    omega
  have hne : n ≠ 0 := by
    rintro rfl
    exact h rfl
  constructor
  · rw [← pow_add, ← hlog]
    exact Nat.log2_self_le hne
  · rw [← pow_add, show 53 + dropped n = n.log2 + 1 by omega]
    exact Nat.lt_log2_self

/-- Of a short size all is kept. -/
lemma lt_of_dropped {n : ℕ} (h : dropped n = 0) : n < 2 ^ 53 := by
  have hlog : n.log2 + 1 ≤ 53 := by
    unfold dropped at h
    omega
  exact Nat.lt_log2_self.trans_le (Nat.pow_le_pow_right two_pos hlog)

lemma kept_of_dropped {n : ℕ} (h : dropped n = 0) : kept n = n := by
  unfold kept
  rw [h]
  rfl

/-- What is kept errs by at most a half of its last place. -/
lemma kept_near (n : ℕ) : |(kept n : ℚ) - n / 2 ^ dropped n| ≤ 1 / 2 :=
  ((Tracks.exact n).shiftRight (dropped n)).near

/-- The 53 bits that are kept, with a carry. -/
lemma kept_bounds (n : ℕ) : (dropped n ≠ 0 → 2 ^ 52 ≤ kept n) ∧ kept n ≤ 2 ^ 53 := by
  by_cases h : dropped n = 0
  · rw [kept_of_dropped h]
    exact ⟨fun hne => absurd h hne, (lt_of_dropped h).le⟩
  · obtain ⟨hlow, hhigh⟩ := dropped_bounds h
    have hnearest : Nearest n (kept n) (dropped n) := by
      refine ⟨?_, ?_, ?_⟩
      · rw [add_comm, zpow_add₀ two_ne_zero]
        exact_mod_cast hlow
      · rw [add_comm, zpow_add₀ two_ne_zero]
        exact_mod_cast hhigh
      · rw [zpow_natCast]
        exact kept_near n
    exact ⟨fun _ => hnearest.bounds.1, hnearest.bounds.2⟩

lemma nearestSize_keep (n : ℕ) : NearestSize n (keep n) :=
  nearestSize_of_near (kept_near n) (kept_bounds n).2
    fun h => by exact_mod_cast (dropped_bounds h).1

lemma isSize_keep (n : ℕ) : IsSize (keep n) :=
  (nearestSize_keep n).isSize

/-- No size is nearer to one than that which is kept of it. -/
lemma keep_near (n : ℕ) {w : ℕ} (hw : IsSize w) : |(keep n : ℚ) - n| ≤ |(w : ℚ) - n| :=
  (nearestSize_keep n).near hw

/-- A size that a number has is kept. -/
lemma keep_of_isSize {n : ℕ} (h : IsSize n) : keep n = n := by
  have hnear := keep_near n h
  rw [sub_self, abs_zero, abs_nonpos_iff, sub_eq_zero] at hnear
  exact_mod_cast hnear

/-- What is nearer to the larger of two is not below their middle. -/
lemma middle_le {a x y : ℚ} (hlt : y < x) (h : |x - a| ≤ |y - a|) : (x + y) / 2 ≤ a := by
  rw [← sq_le_sq] at h
  nlinarith

/-- What is nearer to the smaller of two is not above their middle. -/
lemma le_middle {a x y : ℚ} (hlt : y < x) (h : |y - a| ≤ |x - a|) : a ≤ (x + y) / 2 := by
  rw [← sq_le_sq] at h
  nlinarith

/-- Rounding preserves the order: were a smaller size rounded to the larger of two, both sizes would
be in the middle, and one size. -/
lemma keep_mono {a b : ℕ} (h : a ≤ b) : keep a ≤ keep b := by
  -- rounding is only known to be nearest, so it takes equal sizes to tell what a tie is rounded to
  by_contra hlt
  have hlt : (keep b : ℚ) < keep a := by exact_mod_cast not_le.1 hlt
  have ha := middle_le hlt (keep_near a (isSize_keep b))
  have hb := le_middle hlt (keep_near b (isSize_keep a))
  have heq : a = b := Nat.le_antisymm h (by exact_mod_cast hb.trans ha)
  rw [heq] at hlt
  exact lt_irrefl _ hlt

/-! ## Rounding a count -/

/-- A count of at most the size of the infinite numbers, with the sign and the rounded size of
another. -/
def rounded (z : ℤ) : ℤ := z.sign * (min (keep z.natAbs) farCount : ℕ)

lemma rounded_zero : rounded 0 = 0 := zero_mul _

lemma rounded_apply (s : Sign) {n : ℕ} (h : 0 < n) :
    rounded (s.apply n) = s.apply (min (keep n) farCount : ℕ) := by
  have hsign : (n : ℤ).sign = 1 := Int.sign_eq_one_of_pos (by exact_mod_cast h)
  unfold rounded
  cases s with
  | negative =>
    dsimp only [Sign.apply]
    rw [Int.sign_neg, hsign, Int.natAbs_neg, Int.natAbs_natCast, neg_one_mul]
  | positive =>
    dsimp only [Sign.apply]
    rw [hsign, Int.natAbs_natCast, one_mul]

lemma rounded_mono {a b : ℤ} (h : a ≤ b) : rounded a ≤ rounded b := by
  unfold rounded
  rcases lt_trichotomy a 0 with ha | rfl | ha
  · rcases lt_trichotomy b 0 with hb | rfl | hb
    · have hmin := min_le_min_right farCount (keep_mono (by omega : b.natAbs ≤ a.natAbs))
      rw [Int.sign_eq_neg_one_of_neg ha, Int.sign_eq_neg_one_of_neg hb]
      omega
    · rw [Int.sign_eq_neg_one_of_neg ha, Int.sign_zero, zero_mul]
      omega
    · rw [Int.sign_eq_neg_one_of_neg ha, Int.sign_eq_one_of_pos hb]
      omega
  · rw [Int.sign_zero, zero_mul]
    exact mul_nonneg (Int.sign_nonneg_iff.2 h) (Int.natCast_nonneg _)
  · have hmin := min_le_min_right farCount (keep_mono (by omega : a.natAbs ≤ b.natAbs))
    rw [Int.sign_eq_one_of_pos ha, Int.sign_eq_one_of_pos (ha.trans_le h)]
    omega

/-! ## What the operations round to -/

/-- A significand that ends in zeros loses them to a shift. -/
lemma shift_zeros (m a : ℕ) : ExtendedMantissa.ofMantissaAndAccuracy (m * 2 ^ a) .exact >>> a =
    ExtendedMantissa.ofMantissaAndAccuracy m .exact := by
  change a.repeat ExtendedMantissa.shiftRightOne _ = _
  induction a generalizing m with
  | zero => simp [Nat.repeat]
  | succ a ih =>
    have hdouble : m * 2 ^ (a + 1) = 2 * m * 2 ^ a := by ring
    rw [hdouble]
    change ExtendedMantissa.shiftRightOne (a.repeat _ _) = _
    rw [ih (2 * m)]
    simp [ExtendedMantissa.shiftRightOne, ExtendedMantissa.ofMantissaAndAccuracy]

lemma shift_add (em : ExtendedMantissa) (a b : ℕ) : em >>> (a + b) = em >>> a >>> b := by
  change (a + b).repeat _ em = b.repeat _ (a.repeat _ em)
  induction b with
  | zero => rfl
  | succ b ih => exact congrArg ExtendedMantissa.shiftRightOne ih

/-- The second shift of a rounding clears a carry, and a shorter significand stays at the least
exponent. -/
lemma shift_rounded {m d : ℕ} (hshort : m ≤ 2 ^ 53) (hlong : d ≠ 0 → 2 ^ 52 ≤ m) :
    (UnpackedFloat.shiftToTargetExponent Format.binary64 m (d - 1074) .exact).1.mantissa =
        (carry m (d - 1074)).1 ∧
      (UnpackedFloat.shiftToTargetExponent Format.binary64 m (d - 1074) .exact).2 =
        (carry m (d - 1074)).2 := by
  rcases Nat.lt_or_ge m (2 ^ 52) with hm | hm
  · have hd : d = 0 := by_contra fun hne => absurd (hlong hne) (by omega)
    have hlog : m.log2 ≤ 52 := by
      by_contra hlt
      have hle := (Nat.le_log2 (by rintro rfl; exact hlt (by decide))).1 (not_le.1 hlt)
      omega
    have hshift : (max ((m.log2 : ℤ) + (d - 1074) - 52) (-1074) - (d - 1074)).toNat = 0 := by omega
    rw [shiftToTargetExponent_eq, hshift, carry, if_neg (by omega)]
    exact ⟨rfl, add_zero _⟩
  · exact shift_carry hm hshort (by omega)

lemma log2_mul_two_pow {m : ℕ} (hm : 0 < m) (k : ℕ) : (m * 2 ^ k).log2 = m.log2 + k := by
  have hpos : m * 2 ^ k ≠ 0 := (Nat.mul_pos hm (Nat.two_pow_pos k)).ne'
  rw [Nat.log2_eq_iff hpos, add_right_comm, pow_add, pow_add]
  exact ⟨Nat.mul_le_mul_right _ (Nat.log2_self_le hm.ne'),
    Nat.mul_lt_mul_of_pos_right Nat.lt_log2_self (Nat.two_pow_pos k)⟩

/-- The first shift of a rounding leaves what is kept and its accuracy. -/
lemma shift_first {m k d : ℕ} (hm : 0 < m) (hd : d = k - dropped (m * 2 ^ k)) :
    UnpackedFloat.shiftToTargetExponent Format.binary64 (m * 2 ^ d) (k - 1074 - d) .exact =
      (ExtendedMantissa.ofMantissaAndAccuracy (m * 2 ^ k) .exact >>> dropped (m * 2 ^ k),
        (dropped (m * 2 ^ k) : ℤ) - 1074) := by
  -- `d` zeros are put behind the significand, or `c` places are shifted out, but never both
  obtain ⟨n, hn⟩ : ∃ n, n = m * 2 ^ k := ⟨_, rfl⟩
  have hlog : n.log2 = m.log2 + k := hn ▸ log2_mul_two_pow hm k
  obtain ⟨c, hc⟩ : ∃ c, c = dropped n - k := ⟨_, rfl⟩
  have hscale : m * 2 ^ k = m * 2 ^ d * 2 ^ (k - d) := by
    rw [mul_assoc, ← pow_add, Nat.add_sub_cancel' (by omega)]
  rw [← hn] at hd ⊢
  have htarget : max (((m * 2 ^ d).log2 : ℤ) + (k - 1074 - d) - 52) (-1074) =
      dropped n - 1074 := by
    rw [log2_mul_two_pow hm d]
    unfold dropped
    omega
  have hshift : ((dropped n : ℤ) - 1074 - (k - 1074 - d)).toNat = c := by omega
  have hsplit : dropped n = (k - d) + c := by omega
  rw [shiftToTargetExponent_eq, htarget, hshift]
  refine Prod.ext ?_ (by dsimp only; omega)
  dsimp only
  rw [hsplit, shift_add, hn, hscale, shift_zeros]

/-- A rounding puts zeros behind a short significand first. -/
lemma round_eq (s : Sign) {m k d : ℕ} (hm : 0 < m) (hd : d = k - dropped (m * 2 ^ k)) :
    UnpackedFloat.round Format.binary64 s m (k - 1074) =
      UnpackedFloat.roundWithAccuracy Format.binary64 s (m * 2 ^ d) (k - 1074 - d) .exact := by
  have htarget : max ((m.log2 : ℤ) + (k - 1074) - 52) (-1074) = dropped (m * 2 ^ k) - 1074 := by
    unfold dropped
    rw [log2_mul_two_pow hm k]
    omega
  have hshift : ((k : ℤ) - 1074 - (dropped (m * 2 ^ k) - 1074)).toNat = d := by omega
  unfold UnpackedFloat.round UnpackedFloat.decreaseExponent
  dsimp only
  rw [targetExponent_eq, htarget, hshift, Nat.shiftLeft_eq]

/-- A significand that the first shift of a rounding leaves, of 53 bits or at the least exponent, is
written with its size. -/
lemma count?_of_shift (s : Sign) {m n d : ℕ} {e : ℤ} {accuracy : Accuracy} {em : ExtendedMantissa}
    (hfirst : UnpackedFloat.shiftToTargetExponent Format.binary64 m e accuracy =
      (em, (d : ℤ) - 1074))
    (hn : em.roundedMantissa = n) (hshort : n ≤ 2 ^ 53) (hlong : d ≠ 0 → 2 ^ 52 ≤ n) :
    count? (.ofModel (.pack (UnpackedFloat.roundWithAccuracy Format.binary64 s m e accuracy))) =
      some (s.apply (min (n * 2 ^ d) farCount : ℕ)) := by
  obtain ⟨k, hexponent, hfits, hsize⟩ := exists_fits_carry hshort hlong
  rw [roundWithAccuracy_eq s hfirst hn (shift_rounded hshort hlong), ← hsize]
  split_ifs with hzero
  · rw [hzero, zero_mul, count?_pack_zero, Nat.zero_min]
    cases s <;> rfl
  · rw [← count?_pack_finite s (Nat.pos_of_ne_zero hzero) hfits]
    simp only [hexponent]

/-- What is rounded has the rounded count. -/
lemma count?_round (s : Sign) {m : ℕ} (k : ℕ) (hm : 0 < m) :
    count? (.ofModel (.pack (UnpackedFloat.round Format.binary64 s m (k - 1074)))) =
      some (rounded (s.apply (m * 2 ^ k : ℕ))) := by
  obtain ⟨hlong, hshort⟩ := kept_bounds (m * 2 ^ k)
  rw [round_eq s hm rfl, rounded_apply s (Nat.mul_pos hm (Nat.two_pow_pos k))]
  exact count?_of_shift s (shift_first hm rfl) rfl hshort hlong

lemma count?_normalize (z : ℤ) (k : ℕ) (s : Sign) :
    count? (.ofModel (.pack (UnpackedFloat.normalize Format.binary64 z (k - 1074) s))) =
      some (rounded (z * 2 ^ k)) := by
  unfold UnpackedFloat.normalize
  rcases lt_trichotomy z 0 with hz | rfl | hz
  · obtain ⟨m, rfl⟩ : ∃ m : ℕ, z = -m := ⟨(-z).toNat, by omega⟩
    rw [Int.compare_eq_lt.2 hz]
    dsimp only
    rw [neg_neg, Int.toNat_natCast, count?_round .negative k (by omega)]
    dsimp only [Sign.apply]
    push_cast
    rw [neg_mul]
  · rw [zero_mul, rounded_zero]
    exact count?_pack_zero s
  · obtain ⟨m, rfl⟩ : ∃ m : ℕ, z = m := ⟨z.toNat, by omega⟩
    rw [Int.compare_eq_gt.2 hz]
    dsimp only
    rw [Int.toNat_natCast, count?_round .positive k (by omega)]
    dsimp only [Sign.apply]
    push_cast
    rfl

end PointRelaxation.Binary64
