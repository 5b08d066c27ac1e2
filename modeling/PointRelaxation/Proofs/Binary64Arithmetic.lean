import PointRelaxation.Proofs.Binary64Rounding
import PointRelaxation.Proofs.NearestEven

/-!
# Binary floating point arithmetic rounds

The numbers that programs run on are scalars of the standard model: a product, a sum and a ratio is
the exact one with a small relative error, as long as none of them is too small or too large, and a
floor is exact.

* `Binary64.quantity?`: what a number stands for.
* `Binary64.mul_rounds`, `Binary64.add_rounds`, `Binary64.ratio_rounds`: the operations that round.
* `Binary64.whole_exact`, `Binary64.floor_value`: those that do not.
-/

namespace PointRelaxation

/-! ## Signs -/

/-- A size with its sign. -/
def signed (negative : Bool) (q : ℚ) : ℚ := if negative then -q else q

lemma abs_signed (negative : Bool) {q : ℚ} (hq : 0 ≤ q) : |signed negative q| = q := by
  unfold signed
  split_ifs
  · rw [abs_neg, abs_of_nonneg hq]
  · exact abs_of_nonneg hq

@[simp] lemma signed_zero (negative : Bool) : signed negative 0 = 0 := by
  unfold signed
  split_ifs <;> simp

lemma signed_mul_right (negative : Bool) (q r : ℚ) :
    signed negative q * r = signed negative (q * r) := by
  unfold signed
  split_ifs
  · exact neg_mul q r
  · rfl

lemma Rounds.signed {q r : ℚ} (h : Rounds q r) (negative : Bool) :
    Rounds (signed negative q) (signed negative r) := by
  obtain ⟨δ, hδ, rfl⟩ := h
  refine ⟨δ, hδ, ?_⟩
  unfold PointRelaxation.signed
  split_ifs <;> ring

lemma IsNormal.of_signed {negative : Bool} {q : ℚ} (h : IsNormal (signed negative q))
    (hq : 0 < q) : (2 : ℚ) ^ (-1022 : ℤ) ≤ q ∧ q < 2 ^ (1023 : ℤ) := by
  have habs := abs_signed negative hq.le
  rcases h with hzero | hbounds
  · rw [hzero, abs_zero] at habs
    exact absurd habs hq.ne
  · rwa [habs] at hbounds

namespace Binary64

open Float.Model
open UnpackedFloat (Sign)

lemma signed_mul (s s' : Sign) (q r : ℚ) :
    signed (s * s' == .negative) (q * r) =
      signed (s == .negative) q * signed (s' == .negative) r := by
  cases s with
  | negative =>
    cases s' with
    | negative => exact (neg_mul_neg q r).symm
    | positive => exact (neg_mul q r).symm
  | positive =>
    cases s' with
    | negative => exact (mul_neg q r).symm
    | positive => rfl

lemma signed_apply (s : Sign) (m : ℕ) : ((s.apply m : ℤ) : ℚ) = signed (s == .negative) m := by
  cases s with
  | negative => exact Int.cast_neg _
  | positive => rfl

/-! ## What a number stands for -/

/-- The quantity that a number stands for, unless it is infinite or undefined. -/
def quantity? : Binary64 → Option ℚ
  | finite negative m e => some (signed negative (m * 2 ^ e))
  | _ => none

lemma ofFloat_eq_ofUnpacked (x : Float) : ofFloat x = ofUnpacked x.toModel.unpack :=
  (ofUnpacked_unpack x.toModel.toBits.toBitVec).symm

/-- A number that stands for a quantity of the standard model is a zero, or has a significand of 53
bits. -/
lemma unpack_of_quantity {x : Float} {q : ℚ} (h : quantity? (ofFloat x) = some q)
    (hq : IsNormal q) :
    (q = 0 ∧ ∃ s, x.toModel.unpack = .zero s) ∨
      ∃ s m e h, x.toModel.unpack = .finite s m e h ∧ q = signed (s == .negative) (m * 2 ^ e) ∧
        2 ^ 52 ≤ m ∧ m < 2 ^ 53 ∧ -1074 ≤ e ∧ e ≤ 971 := by
  have hread := ofFloat_eq_ofUnpacked x
  rw [hread] at h
  rcases hx : x.toModel.unpack with s | _ | s | ⟨s, m, e, hm⟩
  · rw [hx] at h
    cases h
  · rw [hx] at h
    cases h
  · rw [hx] at h
    refine .inl ⟨(Option.some.inj h).symm.trans ?_, s, rfl⟩
    rw [Nat.cast_zero, zero_mul, signed_zero]
  · rw [hx] at h hread
    obtain rfl := (Option.some.inj h).symm
    refine .inr ⟨s, m, e, hm, rfl, rfl, ?_⟩
    refine (ofWord_eq_finite ((ofFloat_eq_ofWord x).symm.trans hread)).resolve_right ?_
    rintro ⟨hsmall, rfl⟩
    -- a shorter significand stands for too little
    have hpos : (0 : ℚ) < m := by exact_mod_cast hm
    have hsize : (0 : ℚ) < m * 2 ^ (-1074 : ℤ) := by positivity
    have hlt : (m : ℚ) * 2 ^ (-1074 : ℤ) < 2 ^ (-1022 : ℤ) := by
      calc (m : ℚ) * 2 ^ (-1074 : ℤ) < 2 ^ (52 : ℤ) * 2 ^ (-1074 : ℤ) := by
            gcongr
            exact_mod_cast hsmall
        _ = 2 ^ (-1022 : ℤ) := (zpow_add₀ two_ne_zero 52 (-1074)).symm
    exact absurd (hq.of_signed hsize).1 (not_le.2 hlt)

/-! ## Results -/

/-- A number that is written from what can be read again stands for that. -/
lemma quantity_of_unpack {u : UnpackedFloat}
    (h : UnpackedFloat.unpack Format.binary64 (UnpackedFloat.pack Format.binary64 u) = u) :
    quantity? (ofFloat (.ofModel (.pack u))) = quantity? (ofUnpacked u) := by
  rw [ofFloat_eq_ofUnpacked]
  exact congrArg (fun u => quantity? (ofUnpacked u)) h

lemma quantity_of_zero (s : Sign) :
    quantity? (ofFloat (.ofModel (.pack (.zero s)))) = some 0 := by
  have hunpack : UnpackedFloat.unpack Format.binary64
      (UnpackedFloat.pack Format.binary64 (.zero s)) = .zero s := UnpackedFloat.unpack_packedZero
  rw [quantity_of_unpack hunpack]
  change some (signed (s == .negative) ((0 : ℕ) * 2 ^ leastExponent)) = some 0
  rw [Nat.cast_zero, zero_mul, signed_zero]

lemma quantity_of_finite (s : Sign) {m : ℕ} {e : ℤ} (h : 0 < m) (hm : 2 ^ 52 ≤ m)
    (hm' : m < 2 ^ 53) (he : -1074 ≤ e) (he' : e ≤ 971) :
    quantity? (ofFloat (.ofModel (.pack (.finite s m e h)))) =
      some (signed (s == .negative) (m * 2 ^ e)) :=
  quantity_of_unpack (unpack_pack s h hm hm' he he')

/-- A nearest significand is the result of an operation that rounds. -/
lemma quantity_of_nearest (s : Sign) {q : ℚ} {m : ℕ} {t : ℤ} {hpos : 0 < (carry m t).1}
    (h : Nearest q m t) (hq : IsNormal (signed (s == .negative) q)) :
    ∃ r, quantity? (ofFloat (.ofModel (.pack (.finite s (carry m t).1 (carry m t).2 hpos)))) =
        some r ∧ Rounds (signed (s == .negative) q) r := by
  have hsize : 0 < q := lt_of_lt_of_le (by positivity) h.low
  obtain ⟨hlow, hhigh⟩ := hq.of_signed hsize
  have hleast := h.exponent_ge hlow
  have hgreatest := h.exponent_le hhigh
  obtain ⟨hm, hm', ht, ht'⟩ := carry_bounds t h.bounds.1 h.bounds.2
  refine ⟨signed (s == .negative) (m * 2 ^ t), ?_, h.rounds.signed _⟩
  rw [quantity_of_finite s hpos hm hm' (hleast.trans ht) (by omega), carry_value]

/-! ## Operations on what is unpacked -/

lemma float_add_eq (x y : Float) : x + y = .ofModel (.pack (UnpackedFloat.add Format.binary64
    x.toModel.unpack y.toModel.unpack)) := rfl

lemma float_sub_eq (x y : Float) : x - y = .ofModel (.pack (UnpackedFloat.sub Format.binary64
    x.toModel.unpack y.toModel.unpack)) := rfl

lemma float_mul_eq (x y : Float) : x * y = .ofModel (.pack (UnpackedFloat.mul Format.binary64
    x.toModel.unpack y.toModel.unpack)) := rfl

lemma float_div_eq (x y : Float) : x / y = .ofModel (.pack (UnpackedFloat.div Format.binary64
    x.toModel.unpack y.toModel.unpack)) := rfl

lemma float_sqrt_eq (x : Float) :
    x.sqrt = .ofModel (.pack (UnpackedFloat.sqrt Format.binary64 x.toModel.unpack)) := rfl

/-! ## Products -/

lemma mul_rounds {x y : Float} {p q : ℚ} (hx : quantity? (ofFloat x) = some p)
    (hy : quantity? (ofFloat y) = some q) (hp : IsNormal p) (hq : IsNormal q)
    (hpq : IsNormal (p * q)) :
    ∃ r, quantity? (ofFloat (x * y)) = some r ∧ Rounds (p * q) r := by
  rw [float_mul_eq]
  rcases unpack_of_quantity hx hp with
    ⟨rfl, s, hs⟩ | ⟨s, m, e, hm, hs, rfl, hlong, -⟩
  · -- zero times a number
    have hzero : ∃ s', UnpackedFloat.mul Format.binary64 (.zero s) y.toModel.unpack = .zero s' := by
      rcases unpack_of_quantity hy hq with ⟨rfl, s', hs'⟩ | ⟨s', m', e', hm', hs', -⟩
      · rw [hs']
        exact ⟨_, rfl⟩
      · rw [hs']
        exact ⟨_, rfl⟩
    obtain ⟨s', hs'⟩ := hzero
    rw [hs, hs', zero_mul]
    exact ⟨0, quantity_of_zero s', .refl 0⟩
  · rcases unpack_of_quantity hy hq with
      ⟨rfl, s', hs'⟩ | ⟨s', m', e', hm', hs', rfl, hlong', -⟩
    · rw [hs, hs', mul_zero]
      exact ⟨0, quantity_of_zero _, .refl 0⟩
    · -- the product of two significands has more than the 53 bits that are kept
      have hproduct : signed (s == .negative) (m * 2 ^ e) * signed (s' == .negative) (m' * 2 ^ e') =
          signed (s * s' == .negative) ((m * m' : ℕ) * 2 ^ (e + e')) := by
        rw [← signed_mul, zpow_add₀ two_ne_zero, Nat.cast_mul]
        congr 1
        ring
      rw [hproduct] at hpq ⊢
      have hpos : (0 : ℚ) < (m * m' : ℕ) * 2 ^ (e + e') := by
        have hmm : (0 : ℚ) < (m * m' : ℕ) := by exact_mod_cast Nat.mul_pos hm hm'
        positivity
      have hbits : 2 ^ 52 ≤ m * m' := hlong.trans (Nat.le_mul_of_pos_right m hm')
      obtain ⟨n, t, h, hround, hnearest⟩ :=
        exists_roundWithAccuracy (s * s') hbits (hpq.of_signed hpos).1
      have hrounded : UnpackedFloat.mul Format.binary64 (.finite s m e hm) (.finite s' m' e' hm') =
          .finite (s * s') (carry n t).1 (carry n t).2 h := hround
      rw [hs, hs', hrounded]
      exact quantity_of_nearest (s * s') hnearest hpq

/-! ## Sums -/

/-- A significand in smaller units stands for the same. -/
lemma decreaseExponent_value (m : ℕ) {e t : ℤ} (ht : t ≤ e) :
    ((UnpackedFloat.decreaseExponent m e t).1 : ℚ) * 2 ^ t = m * 2 ^ e := by
  obtain ⟨k, rfl⟩ : ∃ k : ℕ, e = t + k := ⟨(e - t).toNat, by omega⟩
  have hshift : (UnpackedFloat.decreaseExponent m (t + k) t).1 = m * 2 ^ k := by
    unfold UnpackedFloat.decreaseExponent
    dsimp only
    rw [add_sub_cancel_left, Int.toNat_natCast, Nat.shiftLeft_eq]
  rw [hshift, zpow_add₀ two_ne_zero, zpow_natCast]
  push_cast
  ring

/-- A whole number of units is rounded as it should be. -/
lemma normalize_rounds {z t : ℤ} (h : IsNormal (z * 2 ^ t)) :
    ∃ r, quantity? (ofFloat (.ofModel (.pack
      (UnpackedFloat.normalize Format.binary64 z t .positive)))) = some r ∧
        Rounds (z * 2 ^ t) r := by
  unfold UnpackedFloat.normalize
  rcases lt_trichotomy z 0 with hz | rfl | hz
  · obtain ⟨m, rfl⟩ : ∃ m : ℕ, z = -m := ⟨(-z).toNat, by omega⟩
    have hm : 0 < m := by omega
    have hvalue : ((-m : ℤ) : ℚ) * 2 ^ t = signed (Sign.negative == .negative) (m * 2 ^ t) := by
      push_cast
      exact neg_mul _ _
    have hpos : (0 : ℚ) < m * 2 ^ t := by positivity
    rw [hvalue] at h ⊢
    obtain ⟨n, t', hn, hround, hnearest⟩ := exists_round .negative hm (h.of_signed hpos).1
    rw [Int.compare_eq_lt.2 hz]
    dsimp only
    rw [neg_neg, Int.toNat_natCast, hround]
    exact quantity_of_nearest .negative hnearest h
  · rw [Int.cast_zero, zero_mul]
    exact ⟨0, quantity_of_zero .positive, .refl 0⟩
  · obtain ⟨m, rfl⟩ : ∃ m : ℕ, z = m := ⟨z.toNat, by omega⟩
    have hm : 0 < m := by omega
    have hvalue : ((m : ℤ) : ℚ) * 2 ^ t = signed (Sign.positive == .negative) (m * 2 ^ t) := rfl
    have hpos : (0 : ℚ) < m * 2 ^ t := by positivity
    rw [hvalue] at h ⊢
    obtain ⟨n, t', hn, hround, hnearest⟩ := exists_round .positive hm (h.of_signed hpos).1
    rw [Int.compare_eq_gt.2 hz]
    dsimp only
    rw [Int.toNat_natCast, hround]
    exact quantity_of_nearest .positive hnearest h

lemma add_rounds {x y : Float} {p q : ℚ} (hx : quantity? (ofFloat x) = some p)
    (hy : quantity? (ofFloat y) = some q) (hp : IsNormal p) (hq : IsNormal q)
    (hpq : IsNormal (p + q)) :
    ∃ r, quantity? (ofFloat (x + y)) = some r ∧ Rounds (p + q) r := by
  rw [float_add_eq]
  rcases unpack_of_quantity hx hp with
    ⟨rfl, s, hs⟩ | ⟨s, m, e, hm, hs, rfl, hlong, hshort, he, he'⟩
  · rw [hs, zero_add]
    rcases unpack_of_quantity hy hq with
      ⟨rfl, s', hs'⟩ | ⟨s', m', e', hm', hs', rfl, hlong', hshort', he, he'⟩
    · have hzero : ∃ s'', UnpackedFloat.add Format.binary64 (.zero s) (.zero s') = .zero s'' := by
        cases s <;> cases s' <;> exact ⟨_, rfl⟩
      obtain ⟨s'', hs''⟩ := hzero
      rw [hs', hs'']
      exact ⟨0, quantity_of_zero s'', .refl 0⟩
    · rw [hs']
      exact ⟨_, quantity_of_finite s' hm' hlong' hshort' he he', .refl _⟩
  · rcases unpack_of_quantity hy hq with
      ⟨rfl, s', hs'⟩ | ⟨s', m', e', hm', hs', rfl, -⟩
    · rw [hs, hs', add_zero]
      exact ⟨_, quantity_of_finite s hm hlong hshort he he', .refl _⟩
    · -- in the smaller of both units the sum is a whole number
      have hsum : signed (s == .negative) (m * 2 ^ e) + signed (s' == .negative) (m' * 2 ^ e') =
          ((s.apply (UnpackedFloat.decreaseExponent m e (min e e')).1 +
            s'.apply (UnpackedFloat.decreaseExponent m' e' (min e e')).1 : ℤ) : ℚ) *
              2 ^ min e e' := by
        rw [Int.cast_add, add_mul, signed_apply, signed_apply, signed_mul_right, signed_mul_right,
          decreaseExponent_value m (min_le_left e e'),
          decreaseExponent_value m' (min_le_right e e')]
      rw [hsum] at hpq ⊢
      rw [hs, hs']
      exact normalize_rounds hpq

/-! ## Ratios -/

/-- A power of two is compared to a ratio by a shift of the part that is to be made larger. -/
lemma shifted_le_iff (k : ℤ) (num : ℕ) {den : ℕ} (hden : 0 < den) :
    (if 0 ≤ k then decide (den <<< (k.toNat + 52) ≤ num)
      else decide (den <<< 52 ≤ num <<< (-k).toNat)) = true ↔
      (2 : ℚ) ^ (k + 52) ≤ num / den := by
  have hpos : (0 : ℚ) < den := by exact_mod_cast hden
  rw [le_div_iff₀ hpos]
  split_ifs with hk
  · obtain ⟨n, rfl⟩ := Int.eq_ofNat_of_zero_le hk
    rw [decide_eq_true_iff, Int.toNat_natCast, Nat.shiftLeft_eq, ← Nat.cast_le (α := ℚ),
      mul_comm den]
    have hpow : (2 : ℚ) ^ ((n : ℤ) + 52) = (2 ^ (n + 52) : ℕ) := by
      push_cast
      exact_mod_cast rfl
    rw [hpow, Nat.cast_mul]
  · obtain ⟨n, rfl⟩ : ∃ n : ℕ, k = -n := ⟨(-k).toNat, by omega⟩
    have hunit : (0 : ℚ) < 2 ^ n := by positivity
    have hpow : (2 : ℚ) ^ (-(n : ℤ) + 52) * den = den * 2 ^ 52 / 2 ^ n := by
      rw [zpow_add₀ two_ne_zero, zpow_neg, zpow_natCast]
      field_simp
    rw [decide_eq_true_iff, neg_neg, Int.toNat_natCast, Nat.shiftLeft_eq, Nat.shiftLeft_eq,
      ← Nat.cast_le (α := ℚ), hpow, div_le_iff₀ hunit]
    push_cast
    rfl

/-- A first guess at the binary logarithm of a ratio is off by at most one. -/
lemma ratio_bounds {num den : ℕ} (hnum : 0 < num) (hden : 0 < den) :
    (2 : ℚ) ^ ((num.log2 : ℤ) - den.log2 - 1) < num / den ∧
      (num : ℚ) / den < 2 ^ ((num.log2 : ℤ) - den.log2 + 1) := by
  have hpos : (0 : ℚ) < den := by exact_mod_cast hden
  obtain ⟨hnum_low, hnum_high⟩ := log2_bounds hnum.ne' 0
  obtain ⟨hden_low, hden_high⟩ := log2_bounds hden.ne' 0
  rw [zpow_zero, mul_one, add_zero] at hnum_low hnum_high hden_low hden_high
  constructor
  · rw [lt_div_iff₀ hpos]
    calc (2 : ℚ) ^ ((num.log2 : ℤ) - den.log2 - 1) * den
        < 2 ^ ((num.log2 : ℤ) - den.log2 - 1) * 2 ^ ((den.log2 : ℤ) + 1) := by gcongr
      _ = 2 ^ (num.log2 : ℤ) := by
          rw [← zpow_add₀ two_ne_zero]
          congr 1
          ring
      _ ≤ num := hnum_low
  · rw [div_lt_iff₀ hpos]
    calc (num : ℚ) < 2 ^ ((num.log2 : ℤ) + 1) := hnum_high
      _ = 2 ^ ((num.log2 : ℤ) - den.log2 + 1) * 2 ^ (den.log2 : ℤ) := by
          rw [← zpow_add₀ two_ne_zero]
          congr 1
          ring
      _ ≤ 2 ^ ((num.log2 : ℤ) - den.log2 + 1) * den := by gcongr

/-- The unit in the last place of a ratio, unless it is the least there is. -/
lemma unitExponent_bounds {num den : ℕ} (hnum : 0 < num) (hden : 0 < den)
    (hq : (2 : ℚ) ^ (-1022 : ℤ) ≤ num / den) :
    (2 : ℚ) ^ (unitExponent num den + 52) ≤ num / den ∧
      (num : ℚ) / den < 2 ^ (unitExponent num den + 53) := by
  obtain ⟨hlow, hhigh⟩ := ratio_bounds hnum hden
  obtain ⟨guess, hguess⟩ : ∃ guess : ℤ, guess = (num.log2 : ℤ) - den.log2 - 52 := ⟨_, rfl⟩
  have hreaches := shifted_le_iff guess num hden
  have hleast : ∀ e : ℤ, (num : ℚ) / den < 2 ^ (e + 53) → leastExponent ≤ e := by
    intro e he
    have hlt := exponent_lt hq he
    unfold leastExponent
    omega
  unfold unitExponent
  dsimp only
  rw [← hguess]
  by_cases hreach : (2 : ℚ) ^ (guess + 52) ≤ num / den
  · have hup : (num : ℚ) / den < 2 ^ (guess + 53) := by
      convert hhigh using 2
      omega
    rw [if_pos (hreaches.2 hreach), max_eq_left (hleast guess hup)]
    exact ⟨hreach, hup⟩
  · have hup : (num : ℚ) / den < 2 ^ (guess - 1 + 53) := by
      have hstep : guess - 1 + 53 = guess + 52 := by ring
      rw [hstep]
      exact not_le.1 hreach
    have hdown : (2 : ℚ) ^ (guess - 1 + 52) < num / den := by
      convert hlow using 2
      omega
    rw [if_neg (mt hreaches.1 hreach), max_eq_left (hleast (guess - 1) hup)]
    exact ⟨hdown.le, hup⟩

/-- The significand of a ratio counts its units to the nearest one. -/
lemma nearest_significand {num den : ℕ} (hnum : 0 < num) (hden : 0 < den)
    (hq : (2 : ℚ) ^ (-1022 : ℤ) ≤ num / den) :
    Nearest (num / den)
      (if 0 ≤ unitExponent num den then
        roundHalfEven num (den <<< (unitExponent num den).toNat)
      else roundHalfEven (num <<< (-unitExponent num den).toNat) den)
      (unitExponent num den) := by
  obtain ⟨hlow, hhigh⟩ := unitExponent_bounds hnum hden hq
  refine ⟨hlow, hhigh, ?_⟩
  generalize unitExponent num den = e
  split_ifs with he
  · obtain ⟨k, rfl⟩ := Int.eq_ofNat_of_zero_le he
    have hscaled := abs_roundHalfEven_sub_le num (Nat.mul_pos hden (Nat.two_pow_pos k))
    rw [Int.toNat_natCast, Nat.shiftLeft_eq, zpow_natCast, div_div]
    rw [Nat.cast_mul, Nat.cast_pow, Nat.cast_ofNat] at hscaled
    exact hscaled
  · obtain ⟨k, rfl⟩ : ∃ k : ℕ, e = -k := ⟨(-e).toNat, by omega⟩
    have hscaled := abs_roundHalfEven_sub_le (num * 2 ^ k) hden
    have hvalue : (num : ℚ) / den / 2 ^ (-(k : ℤ)) = ((num * 2 ^ k : ℕ) : ℚ) / den := by
      rw [zpow_neg, zpow_natCast]
      push_cast
      field_simp
    rw [neg_neg, Int.toNat_natCast, Nat.shiftLeft_eq, hvalue]
    exact hscaled

/-- The bit that holds the sign of a number. -/
def signBit (negative : Bool) : ℕ := if negative then 1 <<< 63 else 0

lemma signBit_eq (negative : Bool) : signBit negative = negative.toNat * 2 ^ 63 := by
  cases negative <;> rfl

/-- A word of the given fields, the exponent field neither that of the infinite numbers nor that of
the smallest. -/
lemma ofWord_of_fields (negative : Bool) {field fraction : ℕ} (hfield : 0 < field)
    (hfield' : field < 2047) (hfraction : fraction < 2 ^ 52) :
    ofWord (signBit negative + (field * 2 ^ 52 + fraction)) =
      finite negative (fraction + 2 ^ 52) (field - 1075) := by
  obtain ⟨w, hw⟩ : ∃ w, w = signBit negative + (field * 2 ^ 52 + fraction) := ⟨_, rfl⟩
  have hmask : (1 <<< 52 : ℕ) = 2 ^ 52 := rfl
  have hbit := negative.toNat_le
  rw [← hw]
  rw [signBit_eq] at hw
  have hsign : w >>> 63 = negative.toNat := by
    rw [Nat.shiftRight_eq_div_pow]
    omega
  have hnegative : (w >>> 63 == 1) = negative := by
    rw [hsign]
    cases negative <;> rfl
  have hexponent : w >>> 52 % 2048 = field := by
    rw [Nat.shiftRight_eq_div_pow]
    omega
  have hrest : w % 2 ^ 52 = fraction := by omega
  unfold ofWord
  dsimp only
  rw [hnegative, hexponent, hmask, hrest, if_neg hfield'.ne, if_neg hfield.ne']

/-- A word that is put together of a sign, an exponent and a significand, whose leading bit carries
into the exponent. -/
lemma ofWord_of_parts (negative : Bool) {m k : ℕ} (hlow : 2 ^ 52 ≤ m) (hhigh : m ≤ 2 ^ 53)
    (hk : k ≤ 2044) :
    ofWord (signBit negative + (k <<< 52 + m)) =
      finite negative (carry m (k - 1074)).1 (carry m (k - 1074)).2 := by
  unfold carry
  split_ifs with hcarry
  · have hparts : k <<< 52 + m = (k + 2) * 2 ^ 52 + 0 := by
      rw [Nat.shiftLeft_eq, hcarry]
      ring
    have hexponent : ((k + 2 : ℕ) : ℤ) - 1075 = k - 1074 + 1 := by
      push_cast
      ring
    rw [hparts, ofWord_of_fields negative (by omega) (by omega) (by decide), hexponent, zero_add]
  · have hparts : k <<< 52 + m = (k + 1) * 2 ^ 52 + (m - 2 ^ 52) := by
      rw [Nat.shiftLeft_eq]
      omega
    have hexponent : ((k + 1 : ℕ) : ℤ) - 1075 = k - 1074 := by
      push_cast
      ring
    rw [hparts, ofWord_of_fields negative (by omega) (by omega) (by omega), hexponent,
      Nat.sub_add_cancel hlow]

/-- A ratio that is neither too small nor too large has a nearest number. -/
lemma exists_nearest?_eq (negative : Bool) {num den : ℕ} (hnum : 0 < num) (hden : 0 < den)
    (hlow : (2 : ℚ) ^ (-1022 : ℤ) ≤ num / den) (hhigh : (num : ℚ) / den < 2 ^ (1023 : ℤ)) :
    ∃ x m t, nearest? negative num den = some x ∧ Nearest (num / den) m t ∧
      quantity? (ofFloat x) = some (signed negative (m * 2 ^ t)) := by
  obtain ⟨m, hm⟩ : ∃ m, m = if 0 ≤ unitExponent num den then
      roundHalfEven num (den <<< (unitExponent num den).toNat)
    else roundHalfEven (num <<< (-unitExponent num den).toNat) den := ⟨_, rfl⟩
  have hnearest := nearest_significand hnum hden hlow
  rw [← hm] at hnearest
  have hleast := hnearest.exponent_ge hlow
  have hgreatest := hnearest.exponent_le hhigh
  obtain ⟨hbits, hcarry⟩ := hnearest.bounds
  -- the exponent field is within its range, so the word is that of a number
  obtain ⟨k, hk⟩ : ∃ k : ℕ, unitExponent num den = k - 1074 :=
    ⟨(unitExponent num den + 1074).toNat, by omega⟩
  have hfield : (unitExponent num den - leastExponent).toNat = k := by
    unfold leastExponent
    omega
  have hmagnitude : k <<< 52 + m < 2047 <<< 52 := by
    rw [Nat.shiftLeft_eq, Nat.shiftLeft_eq]
    omega
  have hword : signBit negative + (k <<< 52 + m) < 2 ^ 64 := by
    have hbit := negative.toNat_le
    rw [Nat.shiftLeft_eq, Nat.shiftLeft_eq] at hmagnitude
    rw [Nat.shiftLeft_eq]
    have hsign := signBit_eq negative
    omega
  have hread := ofFloat_ofBits hword (ofWord_of_parts negative hbits hcarry (by omega))
  refine ⟨Float.ofBits (UInt64.ofNat (signBit negative + (k <<< 52 + m))), m,
    unitExponent num den, ?_, hnearest, ?_⟩
  · unfold nearest?
    dsimp only
    rw [if_neg hnum.ne', ← hm, hfield, if_pos hmagnitude]
    rfl
  · rw [hread, ← hk]
    exact congrArg (fun q => some (signed negative q)) (carry_value m _)

lemma nearest?_zero (negative : Bool) (den : ℕ) :
    ∃ x, nearest? negative 0 den = some x ∧ quantity? (ofFloat x) = some 0 := by
  refine ⟨_, rfl, ?_⟩
  cases negative with
  | false => decide +kernel
  | true => decide +kernel

/-- A ratio has the sign of its numerator. -/
lemma ratio_eq_signed (n : ℤ) (d : ℕ) :
    (n : ℚ) / d = signed (decide (n < 0)) ((n.natAbs : ℚ) / d) := by
  unfold signed
  by_cases hn : n < 0
  · obtain ⟨m, rfl⟩ : ∃ m : ℕ, n = -m := ⟨n.natAbs, by omega⟩
    rw [if_pos (decide_eq_true hn), Int.natAbs_neg, Int.natAbs_natCast]
    push_cast
    exact neg_div _ _
  · obtain ⟨m, rfl⟩ : ∃ m : ℕ, n = m := ⟨n.natAbs, by omega⟩
    rw [decide_eq_false hn, if_neg Bool.false_ne_true, Int.natAbs_natCast]
    rfl

lemma ratio_rounds (n : ℤ) {d : ℕ} (hd : 0 < d) (h : IsNormal (n / d)) :
    ∃ x r, nearest? (n < 0) n.natAbs d = some x ∧ quantity? (ofFloat x) = some r ∧
      Rounds (n / d) r := by
  rcases eq_or_ne n 0 with rfl | hn
  · obtain ⟨x, hx, hvalue⟩ := nearest?_zero (decide ((0 : ℤ) < 0)) d
    refine ⟨x, 0, hx, hvalue, ?_⟩
    rw [Int.cast_zero, zero_div]
    exact .refl 0
  · have hnum : 0 < n.natAbs := Int.natAbs_pos.2 hn
    have hpos : (0 : ℚ) < (n.natAbs : ℚ) / d := by positivity
    rw [ratio_eq_signed] at h ⊢
    obtain ⟨hlow, hhigh⟩ := h.of_signed hpos
    obtain ⟨x, m, t, hx, hnearest, hvalue⟩ :=
      exists_nearest?_eq (decide (n < 0)) hnum hd hlow hhigh
    exact ⟨x, _, hx, hvalue, hnearest.rounds.signed _⟩

/-- A whole number of at most 53 significant bits is met. -/
lemma whole_exact (m e : ℕ) (hm : m < 2 ^ 53) (he : e ≤ 900) :
    ∃ x, nearest? (((m * 2 ^ e : ℕ) : ℤ) < 0) ((m * 2 ^ e : ℕ) : ℤ).natAbs 1 = some x ∧
      quantity? (ofFloat x) = some ((m * 2 ^ e : ℕ) : ℚ) := by
  have hsign : decide (((m * 2 ^ e : ℕ) : ℤ) < 0) = false :=
    decide_eq_false (not_lt.2 (Int.natCast_nonneg _))
  rw [hsign, Int.natAbs_natCast]
  rcases Nat.eq_zero_or_pos m with rfl | hpos
  · obtain ⟨x, hx, hvalue⟩ := nearest?_zero false 1
    rw [Nat.zero_mul, Nat.cast_zero]
    exact ⟨x, hx, hvalue⟩
  · have hnum : 0 < m * 2 ^ e := by positivity
    have hone : (1 : ℚ) ≤ (m * 2 ^ e : ℕ) := by exact_mod_cast hnum
    have hlow : (2 : ℚ) ^ (-1022 : ℤ) ≤ ((m * 2 ^ e : ℕ) : ℚ) / (1 : ℕ) := by
      rw [Nat.cast_one, div_one]
      exact (zpow_le_one_of_nonpos₀ one_le_two (by decide)).trans hone
    have hsize : ((m * 2 ^ e : ℕ) : ℚ) / (1 : ℕ) < 2 ^ (53 + e : ℤ) := by
      rw [Nat.cast_one, div_one, zpow_add₀ two_ne_zero, zpow_natCast]
      have hcast : (m : ℚ) < 2 ^ (53 : ℤ) := by exact_mod_cast hm
      rw [Nat.cast_mul, Nat.cast_pow, Nat.cast_ofNat]
      gcongr
    have hhigh : ((m * 2 ^ e : ℕ) : ℚ) / (1 : ℕ) < 2 ^ (1023 : ℤ) :=
      hsize.trans_le (zpow_le_zpow_right₀ one_le_two (by omega))
    obtain ⟨x, n, t, hx, hnearest, hvalue⟩ := exists_nearest?_eq false hnum one_pos hlow hhigh
    -- the unit in the last place is no larger than the one that the number is given in
    have hunit : t ≤ e := by
      have hlt := exponent_lt hnearest.low hsize
      omega
    obtain ⟨k, hk⟩ : ∃ k : ℕ, (e : ℤ) = k + t := ⟨(e - t).toNat, by omega⟩
    have hunits : ((m * 2 ^ e : ℕ) : ℚ) / (1 : ℕ) = (m * 2 ^ k : ℕ) * 2 ^ t := by
      rw [Nat.cast_one, div_one]
      push_cast
      rw [← zpow_natCast, hk, zpow_add₀ two_ne_zero, zpow_natCast, mul_assoc]
    refine ⟨x, hx, hvalue.trans ?_⟩
    rw [hnearest.exact_of_eq hunits, Nat.cast_one, div_one]
    rfl

/-! ## Whole parts -/

lemma floor_value {x : Float} {q : ℚ} (h : quantity? (ofFloat x) = some q) :
    floor x = .whole ⌊q⌋ := by
  unfold floor
  rcases hx : ofFloat x with _ | _ | ⟨negative, m, e⟩
  · rw [hx] at h
    cases h
  · rw [hx] at h
    cases h
  · rw [hx] at h
    obtain rfl := (Option.some.inj h).symm
    obtain ⟨n, hn⟩ : ∃ n : ℤ, n = if negative then -(m : ℤ) else m := ⟨_, rfl⟩
    have hvalue : signed negative (m * 2 ^ e) = n * 2 ^ e := by
      rw [← signed_mul_right, hn]
      unfold signed
      split_ifs
      · rw [Int.cast_neg, Int.cast_natCast]
      · rw [Int.cast_natCast]
    dsimp only
    rw [← hn, hvalue]
    congr 1
    split_ifs with he
    · obtain ⟨k, rfl⟩ := Int.eq_ofNat_of_zero_le he
      have hwhole : (n : ℚ) * (2 : ℚ) ^ (k : ℤ) = ((n * (1 <<< k : ℕ) : ℤ) : ℚ) := by
        rw [Nat.shiftLeft_eq, one_mul, zpow_natCast]
        push_cast
        rfl
      rw [Int.toNat_natCast, hwhole, Int.floor_intCast]
    · obtain ⟨k, rfl⟩ : ∃ k : ℕ, e = -k := ⟨(-e).toNat, by omega⟩
      have hquotient : (n : ℚ) * 2 ^ (-(k : ℤ)) = n / (2 ^ k : ℕ) := by
        rw [zpow_neg, zpow_natCast, ← div_eq_mul_inv]
        push_cast
        rfl
      rw [neg_neg, Int.toNat_natCast, hquotient, Rat.floor_intCast_div_natCast,
        Int.shiftRight_eq_div_pow]

lemma half_exact : quantity? (ofFloat 0.5) = some (1 / 2) := by
  have hread : ofFloat 0.5 = finite false (2 ^ 52) (-53) := by decide +kernel
  rw [hread]
  change some ((2 ^ 52 : ℕ) * (2 : ℚ) ^ (-53 : ℤ)) = some (1 / 2)
  norm_num

end Binary64

/-- The numbers a program runs on are scalars of the standard model. -/
instance : RoundedScalar Float where
  value? x := Binary64.quantity? (Binary64.ofFloat x)
  ratio_rounds n _ hd h := Binary64.ratio_rounds n hd h
  mul_rounds := Binary64.mul_rounds
  add_rounds := Binary64.add_rounds
  whole_exact m e hm he := Binary64.whole_exact m e hm he
  half_exact := Binary64.half_exact
  floor_value := Binary64.floor_value

end PointRelaxation
