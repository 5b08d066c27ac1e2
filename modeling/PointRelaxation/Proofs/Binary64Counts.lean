import PointRelaxation.Proofs.Binary64Arithmetic
import PointRelaxation.Proofs.Order

/-!
# Numbers as counts of the least unit

Every finite number is a whole number of the least units there are. The infinite ones can be counted
too, as just more of them than any finite number has. The order of numbers is then that of their
counts, which are integers.

* `count?`: the count of a number, none for what is no number.
* `float_le_iff_count`: numbers compare as their counts do.
* `count?_pack_finite`: a significand that is written is read with its count, or as infinite if its
  exponent is too large.
-/

namespace PointRelaxation.Binary64

open Float.Model
open UnpackedFloat (Sign)

/-! ## Signs -/

lemma apply_neg (s : Sign) (n : ℤ) : (-s).apply n = -s.apply n := by
  cases s with
  | negative => exact (neg_neg n).symm
  | positive => rfl

lemma apply_mul (s : Sign) (a b : ℤ) : s.apply a * b = s.apply (a * b) := by
  cases s with
  | negative => exact neg_mul a b
  | positive => rfl

lemma abs_apply (s : Sign) (n : ℕ) : |s.apply n| = n := by
  cases s with
  | negative => exact (abs_neg _).trans (Nat.abs_cast n)
  | positive => exact Nat.abs_cast n

/-! ## Counts -/

/-- The exponent of the infinite numbers, if they are counted. -/
def farExponent : ℕ := 2098

/-- The size of the infinite numbers, in least units. -/
def farCount : ℕ := 2 ^ farExponent

lemma farCount_pos : 0 < farCount := Nat.two_pow_pos farExponent

lemma abs_zero_lt_farCount : |(0 : ℤ)| < farCount := by
  rw [abs_zero]
  exact Int.natCast_pos.2 farCount_pos

lemma abs_natCast_lt_farCount {n : ℕ} : |(n : ℤ)| < farCount ↔ n < farCount := by
  rw [Nat.abs_cast]
  exact Int.ofNat_lt

/-- A number counted in least units, as it is unpacked from a word. -/
def counted : UnpackedFloat → Option ℤ
  | .notANumber => none
  | .infinity s => some (s.apply farCount)
  | .zero _ => some 0
  | .finite s m e _ => some (s.apply (m * 2 ^ (e + 1074).toNat : ℕ))

/-- A number counted in least units. -/
def count? (x : Float) : Option ℤ := counted x.toModel.unpack

/-- The significands and exponents of numbers. A significand that is shorter than 53 bits belongs to
the least exponent. -/
structure Fits (m : ℕ) (k : ℕ) : Prop where
  short : m < 2 ^ 53
  long : k ≠ 0 → 2 ^ 52 ≤ m

/-- A significand and an exponent that are read from a word fit, and the exponent is bounded. -/
lemma fits_unpack {x : Float} {s : Sign} {m : ℕ} {e : ℤ} {h : 0 < m}
    (hx : x.toModel.unpack = .finite s m e h) :
    ∃ k : ℕ, e = k - 1074 ∧ Fits m k ∧ k ≤ 2045 := by
  have hread := ofFloat_eq_ofUnpacked x
  rw [hx, ofUnpacked_finite, ofFloat_eq_ofWord] at hread
  rcases ofWord_eq_finite hread with ⟨hlow, hhigh, he, he'⟩ | ⟨hlow, rfl⟩
  · exact ⟨(e + 1074).toNat, by omega, ⟨hhigh, fun _ => hlow⟩, by omega⟩
  · exact ⟨0, by norm_num, ⟨by omega, fun hk => absurd rfl hk⟩, by omega⟩

lemma counted_finite (s : Sign) {m : ℕ} (k : ℕ) (h : 0 < m) :
    counted (.finite s m (k - 1074) h) = some (s.apply (m * 2 ^ k : ℕ)) := by
  have hexponent : ((k : ℤ) - 1074 + 1074).toNat = k := by omega
  exact congrArg (fun j => some (s.apply (m * 2 ^ j : ℕ))) hexponent

/-- A finite number has fewer least units than an infinite one. -/
lemma Fits.lt_farCount {m k : ℕ} (h : Fits m k) (hk : k ≤ 2045) : m * 2 ^ k < farCount := by
  have hexponent : 53 + k ≤ farExponent := by
    unfold farExponent
    omega
  unfold farCount
  calc m * 2 ^ k < 2 ^ 53 * 2 ^ k := Nat.mul_lt_mul_of_pos_right h.short (Nat.two_pow_pos k)
    _ = 2 ^ (53 + k) := (pow_add 2 53 k).symm
    _ ≤ 2 ^ farExponent := pow_le_pow_right₀ one_le_two hexponent

/-- Beyond the largest exponent there are at least as many. -/
lemma Fits.farCount_le {m k : ℕ} (h : Fits m k) (hk : 2046 ≤ k) : farCount ≤ m * 2 ^ k := by
  have hexponent : farExponent ≤ 52 + k := by
    unfold farExponent
    omega
  unfold farCount
  calc 2 ^ farExponent ≤ 2 ^ (52 + k) := pow_le_pow_right₀ one_le_two hexponent
    _ = 2 ^ 52 * 2 ^ k := pow_add 2 52 k
    _ ≤ m * 2 ^ k := Nat.mul_le_mul_right _ (h.long (by omega))

/-! ## The order -/

/-- A larger exponent makes a larger number. -/
lemma Fits.count_lt {m m' k k' : ℕ} (h : Fits m k) (h' : Fits m' k') (hk : k < k') :
    m * 2 ^ k < m' * 2 ^ k' := by
  calc m * 2 ^ k < 2 ^ 53 * 2 ^ k := Nat.mul_lt_mul_of_pos_right h.short (Nat.two_pow_pos k)
    _ = 2 ^ 52 * 2 ^ (k + 1) := by rw [pow_succ 2 k]; omega
    _ ≤ m' * 2 ^ k' := Nat.mul_le_mul (h'.long (by omega)) (Nat.pow_le_pow_right two_pos hk)

/-- Sizes compare by exponent, then by significand. -/
lemma Fits.count_le_iff {m m' k k' : ℕ} (h : Fits m k) (h' : Fits m' k') :
    m * 2 ^ k ≤ m' * 2 ^ k' ↔ k < k' ∨ k = k' ∧ m ≤ m' := by
  -- with 53 bits each, the larger exponent decides
  rcases lt_trichotomy k k' with hk | rfl | hk
  · exact iff_of_true (h.count_lt h' hk).le (.inl hk)
  · simp [Nat.mul_le_mul_right_iff (Nat.two_pow_pos k)]
  · exact iff_of_false (h'.count_lt h hk).not_ge (by omega)

/-- A number by its rank and by its count. -/
inductive Seat : ℤ ×ₗ ℤ ×ₗ ℤ → ℤ → Prop
  | infinite (s : Sign) : Seat (toLex (s.apply 2, toLex (0, 0))) (s.apply farCount)
  | zero : Seat (toLex (0, toLex (0, 0))) 0
  | finite (s : Sign) {m k : ℕ} : 0 < m → k ≤ 2045 → Fits m k →
      Seat (toLex (s.apply 1, toLex (s.apply (k - 1074), s.apply m))) (s.apply (m * 2 ^ k : ℕ))

namespace Seat

variable {r r' : ℤ ×ₗ ℤ ×ₗ ℤ} {z z' : ℤ}

/-- What the first part of a rank says about the count. -/
lemma bounds (h : Seat r z) : ((ofLex r).1 = -2 ∧ z = -farCount) ∨
    ((ofLex r).1 = -1 ∧ -farCount < z ∧ z < 0) ∨ ((ofLex r).1 = 0 ∧ z = 0) ∨
    ((ofLex r).1 = 1 ∧ 0 < z ∧ z < farCount) ∨ ((ofLex r).1 = 2 ∧ z = farCount) := by
  cases h with
  | infinite s =>
    cases s with
    | negative => exact .inl ⟨rfl, rfl⟩
    | positive => exact .inr (.inr (.inr (.inr ⟨rfl, rfl⟩)))
  | zero => exact .inr (.inr (.inl ⟨rfl, rfl⟩))
  | @finite s m k hm hk h =>
    have hpos := Nat.mul_pos hm (Nat.two_pow_pos k)
    have hlt := h.lt_farCount hk
    cases s with
    | negative => exact .inr (.inl ⟨rfl, by dsimp only [Sign.apply]; omega⟩)
    | positive => exact .inr (.inr (.inr (.inl ⟨rfl, by dsimp only [Sign.apply]; omega⟩)))

/-- Numbers of one kind and sign compare by exponent and significand. -/
lemma rest_le_iff (h : Seat r z) (h' : Seat r' z') (hkind : (ofLex r).1 = (ofLex r').1) :
    (ofLex r).2 ≤ (ofLex r').2 ↔ z ≤ z' := by
  have hbounds := h.bounds
  have hbounds' := h'.bounds
  -- only seats of one kind have the same first part
  rcases h with s | _ | @⟨s, m, k, hm, hk, h⟩
  · rcases h' with s' | _ | @⟨s', m', k', hm', hk', h'⟩
    · obtain rfl : s = s' := by cases s <;> cases s' <;> first | rfl | cases hkind
      exact iff_of_true le_rfl le_rfl
    · cases s <;> cases hkind
    · cases s <;> cases s' <;> cases hkind
  · rcases h' with s' | _ | @⟨s', m', k', hm', hk', h'⟩
    · cases s' <;> cases hkind
    · exact iff_of_true le_rfl le_rfl
    · cases s' <;> cases hkind
  · rcases h' with s' | _ | @⟨s', m', k', hm', hk', h'⟩
    · cases s <;> cases s' <;> cases hkind
    · cases s <;> cases hkind
    · -- among negative numbers the larger size is the smaller number
      have hle := h.count_le_iff h'
      have hge := h'.count_le_iff h
      generalize m * 2 ^ k = n at hle hge hbounds ⊢
      generalize m' * 2 ^ k' = n' at hle hge hbounds' ⊢
      cases s <;> cases s' <;>
        simp only [Sign.apply, Prod.Lex.le_iff, ofLex_toLex] at hkind ⊢ <;> omega

/-- Ranks compare as counts do. -/
lemma le_iff (h : Seat r z) (h' : Seat r' z') : r ≤ r' ↔ z ≤ z' := by
  have hbounds := h.bounds
  have hbounds' := h'.bounds
  have hfar := farCount_pos
  rw [Prod.Lex.le_iff]
  by_cases hkind : (ofLex r).1 = (ofLex r').1
  · rw [← h.rest_le_iff h' hkind]
    simp [hkind]
  · omega

end Seat

/-- A number has a rank and a count, and what is no number has neither. -/
lemma seat_cases (x : Float) : (rank x.toModel.unpack = none ∧ count? x = none) ∨
    ∃ r z, rank x.toModel.unpack = some r ∧ count? x = some z ∧ Seat r z := by
  unfold count?
  rcases hx : x.toModel.unpack with s | _ | s | ⟨s, m, e, hm⟩
  · refine .inr ⟨_, _, ?_, rfl, .infinite s⟩
    cases s <;> rfl
  · exact .inl ⟨rfl, rfl⟩
  · exact .inr ⟨_, _, rfl, rfl, .zero⟩
  · obtain ⟨k, rfl, hfits, hk⟩ := fits_unpack hx
    refine .inr ⟨_, _, ?_, counted_finite s k hm, .finite s hm hk hfits⟩
    cases s <;> rfl

/-- Numbers compare as their counts do. -/
lemma float_le_iff_count (a b : Float) :
    a ≤ b ↔ ∃ x y, count? a = some x ∧ count? b = some y ∧ x ≤ y := by
  rw [float_le_iff]
  rcases seat_cases a with ⟨hra, hca⟩ | ⟨r, z, hra, hca, ha⟩
  · simp [hra, hca]
  · rcases seat_cases b with ⟨hrb, hcb⟩ | ⟨r', z', hrb, hcb, hb⟩
    · simp [hrb, hcb]
    · simp [hra, hca, hrb, hcb, ha.le_iff hb]

lemma le_iff_of_count {x y : Float} {z w : ℤ} (hx : count? x = some z) (hy : count? y = some w) :
    x ≤ y ↔ z ≤ w := by
  rw [float_le_iff_count]
  refine ⟨?_, fun h => ⟨z, w, hx, hy, h⟩⟩
  rintro ⟨i, j, hi, hj, hij⟩
  obtain rfl := Option.some.inj (hx.symm.trans hi)
  obtain rfl := Option.some.inj (hy.symm.trans hj)
  exact hij

lemma lt_iff_of_count {x y : Float} {z w : ℤ} (hx : count? x = some z) (hy : count? y = some w) :
    x < y ↔ z < w := by
  rw [float_lt_iff_le, le_iff_of_count hx hy, le_iff_of_count hy hx, lt_iff_le_not_ge]

/-- Numbers of which neither exceeds the other have one count. -/
lemma count?_of_same {x y : Float} {z : ℤ} (hy : count? y = some z) (h : Scalar.Same x y) :
    count? x = some z := by
  obtain ⟨i, j, hi, hj, hij⟩ := (float_le_iff_count x y).1 h.1
  obtain ⟨j', i', hj', hi', hji⟩ := (float_le_iff_count y x).1 h.2
  obtain rfl := Option.some.inj (hy.symm.trans hj)
  obtain rfl := Option.some.inj (hy.symm.trans hj')
  obtain rfl := Option.some.inj (hi.symm.trans hi')
  rw [hi, le_antisymm hij hji]

/-- No count is larger than that of the infinite numbers. -/
lemma abs_le_of_count {x : Float} {z : ℤ} (h : count? x = some z) : |z| ≤ farCount := by
  rcases seat_cases x with ⟨-, hnone⟩ | ⟨r, z', -, hsome, hseat⟩
  · simp [hnone] at h
  · obtain rfl : z' = z := Option.some.inj (hsome.symm.trans h)
    have hbounds := hseat.bounds
    have hfar := farCount_pos
    rw [abs_le]
    omega

/-! ## Writing and reading -/

/-- What an operation writes is read by its unpacked form. -/
lemma count?_ofModel_pack (u : UnpackedFloat) : count? (.ofModel (.pack u)) =
    counted (UnpackedFloat.unpack Format.binary64 (UnpackedFloat.pack Format.binary64 u)) := rfl

lemma count?_pack_notANumber : count? (.ofModel (.pack .notANumber)) = none := by
  rw [count?_ofModel_pack]
  exact congrArg counted UnpackedFloat.unpack_packedNaN

lemma count?_pack_zero (s : Sign) : count? (.ofModel (.pack (.zero s))) = some 0 := by
  rw [count?_ofModel_pack]
  exact congrArg counted UnpackedFloat.unpack_packedZero

lemma unpack_packedInfinity (s : Sign) : UnpackedFloat.unpack Format.binary64
    (UnpackedFloat.packedInfinity Format.binary64 s) = .infinity s := by
  cases s <;> rfl

lemma count?_pack_infinity (s : Sign) :
    count? (.ofModel (.pack (.infinity s))) = some (s.apply farCount) := by
  rw [count?_ofModel_pack]
  exact congrArg counted (unpack_packedInfinity s)

/-- A shorter significand is written and read again at the least exponent. -/
lemma unpack_pack_least (s : Sign) {m : ℕ} (h : 0 < m) (hm : m < 2 ^ 52) :
    UnpackedFloat.unpack Format.binary64
      (UnpackedFloat.pack Format.binary64 (.finite s m (-1074) h)) = .finite s m (-1074) h := by
  have hlog : m.log2 + 1 ≠ Format.binary64.mantissaBits := by
    have hlt := (Nat.log2_lt h.ne').2 hm
    have hbits : Format.binary64.mantissaBits = 53 := rfl
    omega
  have hpack : UnpackedFloat.pack Format.binary64 (.finite s m (-1074) h) =
      UnpackedFloat.packComponents Format.binary64 s 0#11 (BitVec.ofNat 52 m) := by
    have hfit : ¬ 2 ^ 11 ≤ ((-1074 : ℤ) + Format.binary64.exponentBias + (52 : ℕ)).toNat + 1 := by
      decide
    unfold UnpackedFloat.pack
    dsimp only
    rw [if_neg hfit, if_neg hlog]
  have hread : (BitVec.ofNat 52 m).toNat = m := by
    rw [BitVec.toNat_ofNat, Nat.mod_eq_of_lt hm]
  have hfraction : BitVec.ofNat 52 m ≠ 0#52 := fun heq => by
    have hnat : m = 0 := hread.symm.trans (congrArg BitVec.toNat heq)
    omega
  have hones : (0#11 : BitVec 11) ≠ -1#11 := by decide
  rw [hpack]
  unfold UnpackedFloat.unpack
  simp only [UnpackedFloat.unpackMantissa_packComponents,
    UnpackedFloat.unpackExponent_packComponents, UnpackedFloat.unpackSign_packComponents]
  rw [if_neg hones, if_pos trivial, dif_neg hfraction, Sign.ofBitVec_toBitVec]
  congr 1

/-- A significand that fits is written and read again, unless its exponent is too large. -/
lemma unpack_pack_of_fits (s : Sign) {m k : ℕ} (h : 0 < m) (hfits : Fits m k) (hk : k ≤ 2045) :
    UnpackedFloat.unpack Format.binary64
      (UnpackedFloat.pack Format.binary64 (.finite s m (k - 1074) h)) =
        .finite s m (k - 1074) h := by
  rcases Nat.lt_or_ge m (2 ^ 52) with hm | hm
  · obtain rfl : k = 0 := by_contra fun hne => absurd (hfits.long hne) (by omega)
    exact unpack_pack_least s h hm
  · exact unpack_pack s h hm hfits.short (by omega) (by omega)

/-- A significand whose exponent is too large is written as an infinite number. -/
lemma pack_of_large (s : Sign) {m k : ℕ} (h : 0 < m) (hk : 2046 ≤ k) :
    UnpackedFloat.pack Format.binary64 (.finite s m (k - 1074) h) =
      UnpackedFloat.packedInfinity Format.binary64 s := by
  have hfit : 2 ^ 11 ≤
      ((k - 1074 : ℤ) + Format.binary64.exponentBias + (52 : ℕ)).toNat + 1 := by
    have hbias : (Format.binary64.exponentBias : ℤ) = 1023 := rfl
    omega
  unfold UnpackedFloat.pack
  exact if_pos hfit

/-- A significand that fits is read with its count, unless its exponent is too large; then it is
infinite. -/
lemma count?_pack_finite (s : Sign) {m k : ℕ} (h : 0 < m) (hfits : Fits m k) :
    count? (.ofModel (.pack (.finite s m (k - 1074) h))) =
      some (s.apply (min (m * 2 ^ k) farCount : ℕ)) := by
  rw [count?_ofModel_pack]
  rcases Nat.lt_or_ge k 2046 with hk | hk
  · rw [min_eq_left (hfits.lt_farCount (by omega)).le, ← counted_finite s k h]
    exact congrArg counted (unpack_pack_of_fits s h hfits (by omega))
  · rw [min_eq_right (hfits.farCount_le hk), pack_of_large s h hk]
    exact congrArg counted (unpack_packedInfinity s)

/-- A number is told by what it is unpacked as. -/
lemma unpack_inj {x y : Float} : x.toModel.unpack = y.toModel.unpack ↔ x = y := by
  refine ⟨fun h => ?_, fun h => by rw [h]⟩
  exact Float.toBits_inj.1 (UInt64.toBitVec_inj.1
    ((UnpackedFloat.unpack_inj_of_valid x.toModel.valid y.toModel.valid).1 h))

/-- Turning the sign of a number turns that of what it is unpacked as. -/
lemma unpack_neg (x : Float) : (-x).toModel.unpack = x.toModel.unpack.neg := by
  have hneg : -x = .ofModel (.pack x.toModel.unpack.neg) := rfl
  rw [hneg]
  change UnpackedFloat.unpack _ (UnpackedFloat.pack _ _) = _
  rcases hx : x.toModel.unpack with s | _ | s | ⟨s, m, e, hm⟩
  · exact unpack_packedInfinity (-s)
  · exact UnpackedFloat.unpack_packedNaN
  · exact UnpackedFloat.unpack_packedZero
  · obtain ⟨k, rfl, hfits, hk⟩ := fits_unpack hx
    exact unpack_pack_of_fits (-s) hm hfits hk

/-- A number with the sign turned has the count with the sign turned. -/
lemma count?_neg (x : Float) : count? (-x) = (count? x).map (- ·) := by
  change counted (-x).toModel.unpack = (counted x.toModel.unpack).map _
  rw [unpack_neg]
  cases x.toModel.unpack with
  | notANumber => rfl
  | zero s => rfl
  | infinity s => exact congrArg some (apply_neg s farCount)
  | finite s m e hm => exact congrArg some (apply_neg s _)

lemma count?_neg_of_count {x : Float} {z : ℤ} (hx : count? x = some z) :
    count? (-x) = some (-z) := by
  rw [count?_neg, hx]
  rfl

/-- A number without its sign has the count without its sign. -/
lemma count?_abs (x : Float) : count? x.abs = (count? x).map (|·|) := by
  have habs : x.abs = .ofModel (.pack x.toModel.unpack.abs) := rfl
  rw [habs]
  change _ = (counted x.toModel.unpack).map _
  rcases hx : x.toModel.unpack with s | _ | s | ⟨s, m, e, hm⟩
  · exact (count?_pack_infinity .positive).trans (congrArg some (abs_apply s farCount).symm)
  · exact count?_pack_notANumber
  · exact count?_pack_zero .positive
  · obtain ⟨k, rfl, hfits, hk⟩ := fits_unpack hx
    rw [counted_finite s k hm]
    refine (count?_pack_finite .positive hm hfits).trans ?_
    rw [min_eq_left (hfits.lt_farCount hk).le]
    exact congrArg some (abs_apply s _).symm

end PointRelaxation.Binary64
