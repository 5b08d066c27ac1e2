import PointRelaxation.Proofs.Binary64Words
import PointRelaxation.Proofs.RoundedArithmetic

/-!
# The nearest significand

An operation has a significand of any length for a result and keeps 53 bits of it. The places that
are shifted out leave two bits behind, from which it is told whether the nearest significand is the
one below or the one above; and that is off by half a unit at most, a small part of the whole.

* `Nearest.rounds`: a nearest significand is a result of the standard model.
* `Tracks.near`: two bits are enough to find it.
* `exists_round`: it is what the operations keep.
-/

namespace PointRelaxation.Binary64

open Float.Model
open UnpackedFloat (Sign ExtendedMantissa Accuracy)

/-! ## Significands -/

/-- Powers of two with a quantity between them are in the order of their exponents. -/
lemma exponent_lt {q : ℚ} {a b : ℤ} (hlow : (2 : ℚ) ^ a ≤ q) (hhigh : q < 2 ^ b) : a < b :=
  (zpow_lt_zpow_iff_right₀ one_lt_two).1 (hlow.trans_lt hhigh)

/-- What is off by at most a half is not below a whole number that the quantity reaches. -/
lemma le_of_near {x : ℚ} {m n : ℕ} (hnear : |(m : ℚ) - x| ≤ 1 / 2) (hn : (n : ℚ) ≤ x) : n ≤ m := by
  have hlt : (n : ℚ) < m + 1 := by linarith [(abs_le.1 hnear).1]
  exact Nat.lt_succ_iff.1 (by exact_mod_cast hlt)

/-- What is off by at most a half is not above a whole number that the quantity does not exceed. -/
lemma ge_of_near {x : ℚ} {m n : ℕ} (hnear : |(m : ℚ) - x| ≤ 1 / 2) (hn : x ≤ n) : m ≤ n := by
  have hlt : (m : ℚ) < n + 1 := by linarith [(abs_le.1 hnear).2]
  exact Nat.lt_succ_iff.1 (by exact_mod_cast hlt)

/-- `m` is the significand of 53 bits that is nearest to `q` in units of `2 ^ t`. It may have
carried into a bit of its own. -/
structure Nearest (q : ℚ) (m : ℕ) (t : ℤ) : Prop where
  low : 2 ^ (t + 52) ≤ q
  high : q < 2 ^ (t + 53)
  near : |(m : ℚ) - q / 2 ^ t| ≤ 1 / 2

namespace Nearest

variable {q : ℚ} {m : ℕ} {t : ℤ}

lemma bounds (h : Nearest q m t) : 2 ^ 52 ≤ m ∧ m ≤ 2 ^ 53 := by
  have hunit : (0 : ℚ) < 2 ^ t := by positivity
  constructor
  · refine le_of_near h.near ?_
    rw [le_div_iff₀ hunit, Nat.cast_pow, ← zpow_natCast, Nat.cast_ofNat, ← zpow_add₀ two_ne_zero,
      add_comm]
    exact h.low
  · refine ge_of_near h.near ?_
    rw [div_le_iff₀ hunit, Nat.cast_pow, ← zpow_natCast, Nat.cast_ofNat, ← zpow_add₀ two_ne_zero,
      add_comm]
    exact h.high.le

/-- A half of a unit is a small part of the whole. -/
lemma rounds (h : Nearest q m t) : Rounds q (m * 2 ^ t) := by
  have hunit : (0 : ℚ) < 2 ^ t := by positivity
  have hq : 0 < q := lt_of_lt_of_le (by positivity) h.low
  have hexact : (m : ℚ) * 2 ^ t - q = (m - q / 2 ^ t) * 2 ^ t := by
    field_simp
  have herror : |(m : ℚ) * 2 ^ t - q| ≤ roundoff * q := by
    calc |(m : ℚ) * 2 ^ t - q| = |(m : ℚ) - q / 2 ^ t| * 2 ^ t := by
          rw [hexact, abs_mul, abs_of_pos hunit]
      _ ≤ 1 / 2 * 2 ^ t := by gcongr; exact h.near
      _ = roundoff * 2 ^ (t + 52) := by
          rw [zpow_add₀ two_ne_zero]
          norm_num [roundoff]
          ring
      _ ≤ roundoff * q := by
          gcongr
          · norm_num [roundoff]
          · exact h.low
  refine ⟨(m * 2 ^ t - q) / q, ?_, ?_⟩
  · rw [abs_div, abs_of_pos hq, div_le_iff₀ hq]
    exact herror
  · field_simp
    ring

/-- A whole number of units is met. -/
lemma exact_of_eq (h : Nearest q m t) {n : ℕ} (hn : q = n * 2 ^ t) : m * 2 ^ t = q := by
  have hunit : (2 : ℚ) ^ t ≠ 0 := by positivity
  have hnear := h.near
  rw [hn, mul_div_cancel_right₀ _ hunit] at hnear
  have hm : m = n := Nat.le_antisymm (ge_of_near hnear le_rfl) (le_of_near hnear le_rfl)
  rw [hn, hm]

lemma exponent_ge (h : Nearest q m t) (hq : (2 : ℚ) ^ (-1022 : ℤ) ≤ q) : -1074 ≤ t := by
  have hlt := exponent_lt hq h.high
  omega

lemma exponent_le (h : Nearest q m t) (hq : q < (2 : ℚ) ^ (1023 : ℤ)) : t ≤ 970 := by
  have hlt := exponent_lt h.low hq
  omega

end Nearest

/-- A significand with its exponent when a carry is cleared. -/
def carry (m : ℕ) (t : ℤ) : ℕ × ℤ := if m = 2 ^ 53 then (2 ^ 52, t + 1) else (m, t)

lemma carry_bounds {m : ℕ} (t : ℤ) (hlow : 2 ^ 52 ≤ m) (hhigh : m ≤ 2 ^ 53) :
    2 ^ 52 ≤ (carry m t).1 ∧ (carry m t).1 < 2 ^ 53 ∧
      t ≤ (carry m t).2 ∧ (carry m t).2 ≤ t + 1 := by
  unfold carry
  split_ifs with h
  · exact ⟨le_rfl, Nat.pow_lt_pow_right one_lt_two (by decide), by omega, by omega⟩
  · exact ⟨hlow, by omega, by omega, by omega⟩

lemma carry_value (m : ℕ) (t : ℤ) : ((carry m t).1 : ℚ) * 2 ^ (carry m t).2 = m * 2 ^ t := by
  unfold carry
  split_ifs with h
  · rw [h, zpow_add₀ two_ne_zero]
    norm_num
    ring
  · rfl

/-! ## Shifted significands -/

/-- What is kept of a significand that is shifted to the right: the whole part, whether the rest is
at least a half, and whether it is more than nothing and other than a half. -/
structure Tracks (em : ExtendedMantissa) (x : ℚ) : Prop where
  mantissa_le : (em.mantissa : ℚ) ≤ x
  lt_mantissa : x < em.mantissa + 1
  roundBit : em.roundBit ↔ em.mantissa + 1 / 2 ≤ x
  stickyBit : em.stickyBit ↔ x ≠ em.mantissa ∧ x ≠ em.mantissa + 1 / 2

namespace Tracks

variable {em : ExtendedMantissa} {x : ℚ}

lemma exact (m : ℕ) : Tracks (ExtendedMantissa.ofMantissaAndAccuracy m .exact) m := by
  refine ⟨le_rfl, lt_add_one _, ?_, ?_⟩
  · simp [ExtendedMantissa.ofMantissaAndAccuracy]
  · simp [ExtendedMantissa.ofMantissaAndAccuracy]

/-- Some bit is set if anything is lost. -/
lemma bit_iff (h : Tracks em x) : (em.roundBit || em.stickyBit) ↔ x ≠ em.mantissa := by
  rw [Bool.or_eq_true, h.roundBit, h.stickyBit]
  constructor
  · rintro (hround | ⟨hne, -⟩)
    · exact ne_of_gt (by linarith)
    · exact hne
  · intro hne
    by_cases hhalf : x = em.mantissa + 1 / 2
    · exact .inl hhalf.ge
    · exact .inr ⟨hne, hhalf⟩

/-- A shift by one place halves the whole part, whose last bit tells whether the rest is a half. -/
lemma shiftRightOne (h : Tracks em x) : Tracks em.shiftRightOne (x / 2) := by
  obtain ⟨k, hk⟩ : ∃ k, em.shiftRightOne.mantissa = k := ⟨_, rfl⟩
  obtain ⟨b, hb⟩ : ∃ b, em.shiftRightOne.roundBit = b := ⟨_, rfl⟩
  have hparts : em.mantissa = 2 * k + b.toNat := by
    obtain rfl := hk
    obtain rfl := hb
    unfold ExtendedMantissa.shiftRightOne
    dsimp only
    rcases Nat.mod_two_eq_zero_or_one em.mantissa with hbit | hbit
    all_goals
      rw [hbit]
      have hsplit := Nat.div_add_mod em.mantissa 2
      rw [hbit] at hsplit
      exact hsplit.symm
  have hcast : (em.mantissa : ℚ) = 2 * k + b.toNat := by exact_mod_cast hparts
  have hle := h.mantissa_le
  have hlt := h.lt_mantissa
  have hsticky : em.shiftRightOne.stickyBit ↔ x ≠ em.mantissa := h.bit_iff
  rw [hcast] at hle hlt hsticky
  cases b with
  | false =>
    simp only [Bool.toNat_false, Nat.cast_zero, add_zero] at hle hlt hsticky
    have hround : ¬ (k : ℚ) + 1 / 2 ≤ x / 2 := by linarith
    refine ⟨by rw [hk]; linarith, by rw [hk]; linarith, ?_, ?_⟩
    · rw [hk, hb]
      exact iff_of_false Bool.false_ne_true hround
    · rw [hk, hsticky]
      refine ⟨fun hne => ⟨fun heq => hne (by linarith), fun heq => hround heq.ge⟩, ?_⟩
      rintro ⟨hne, -⟩ heq
      exact hne (by linarith)
  | true =>
    simp only [Bool.toNat_true, Nat.cast_one] at hle hlt hsticky
    have hround : (k : ℚ) + 1 / 2 ≤ x / 2 := by linarith
    refine ⟨by rw [hk]; linarith, by rw [hk]; linarith, ?_, ?_⟩
    · rw [hk, hb]
      exact iff_of_true rfl hround
    · rw [hk, hsticky]
      refine ⟨fun hne => ⟨fun heq => ?_, fun heq => hne (by linarith)⟩, ?_⟩
      · linarith
      · rintro ⟨-, hne⟩ heq
        exact hne (by linarith)

lemma shiftRight (h : Tracks em x) (n : ℕ) : Tracks (em >>> n) (x / 2 ^ n) := by
  change Tracks (n.repeat ExtendedMantissa.shiftRightOne em) (x / 2 ^ n)
  induction n with
  | zero => simpa [Nat.repeat] using h
  | succ n ih =>
    have hstep := ih.shiftRightOne
    rwa [div_div, ← pow_succ] at hstep

/-- Rounding errs by at most a half. -/
lemma near (h : Tracks em x) : |(em.roundedMantissa : ℚ) - x| ≤ 1 / 2 := by
  obtain ⟨m, roundBit, stickyBit⟩ := em
  obtain ⟨hle, hlt, hround, hsticky⟩ := h
  dsimp only at hle hlt hround hsticky
  rw [abs_le]
  cases roundBit with
  | false =>
    have hbelow : x < m + 1 / 2 := lt_of_not_ge fun hge => Bool.false_ne_true (hround.2 hge)
    have hrounded : (ExtendedMantissa.mk m false stickyBit).roundedMantissa = m := by
      cases stickyBit <;> rfl
    rw [hrounded]
    constructor <;> linarith
  | true =>
    have habove : m + 1 / 2 ≤ x := hround.1 rfl
    cases stickyBit with
    | false =>
      -- a tie
      have hx : x = m + 1 / 2 := by
        by_contra hne
        exact Bool.false_ne_true (hsticky.2 ⟨fun heq => by linarith, hne⟩)
      have hrounded : (ExtendedMantissa.mk m true false).roundedMantissa = m + m % 2 := rfl
      have hparity : ((m % 2 : ℕ) : ℚ) ≤ 1 := by
        exact_mod_cast Nat.lt_succ_iff.1 (Nat.mod_lt m two_pos)
      have hnonneg : (0 : ℚ) ≤ ((m % 2 : ℕ) : ℚ) := Nat.cast_nonneg _
      rw [hrounded, hx, Nat.cast_add]
      constructor <;> linarith
    | true =>
      have hrounded : (ExtendedMantissa.mk m true true).roundedMantissa = m + 1 := rfl
      rw [hrounded, Nat.cast_add, Nat.cast_one]
      constructor <;> linarith

end Tracks

/-! ## Rounding to a format -/

lemma minExponent_eq : Format.binary64.minExponent = -1074 := by decide

lemma targetExponent_eq (m : ℕ) (e : ℤ) :
    Format.binary64.targetExponent (totalExponent m e) = max (m.log2 + e - 52) (-1074) := by
  unfold Format.targetExponent totalExponent
  rw [minExponent_eq]
  change max ((m.log2 : ℤ) + 1 + e - 53) (-1074) = _
  congr 1
  omega

lemma shiftToTargetExponent_eq (m : ℕ) (e : ℤ) (accuracy : Accuracy) :
    UnpackedFloat.shiftToTargetExponent Format.binary64 m e accuracy =
      (ExtendedMantissa.ofMantissaAndAccuracy m accuracy >>>
        (max (m.log2 + e - 52) (-1074) - e).toNat,
        e + (max (m.log2 + e - 52) (-1074) - e).toNat) := by
  unfold UnpackedFloat.shiftToTargetExponent
  dsimp only
  rw [targetExponent_eq]
  rfl

/-- A significand of 53 bits stays, and a carry is cleared. -/
lemma shift_carry {m : ℕ} {t : ℤ} (hlow : 2 ^ 52 ≤ m) (hhigh : m ≤ 2 ^ 53) (ht : -1074 ≤ t) :
    (UnpackedFloat.shiftToTargetExponent Format.binary64 m t .exact).1.mantissa = (carry m t).1 ∧
      (UnpackedFloat.shiftToTargetExponent Format.binary64 m t .exact).2 = (carry m t).2 := by
  rw [shiftToTargetExponent_eq]
  unfold carry
  rcases hhigh.lt_or_eq with hlt | rfl
  · have hlog : m.log2 = 52 := (Nat.log2_eq_iff (by omega)).2 ⟨hlow, hlt⟩
    have hshift : (max ((m.log2 : ℤ) + t - 52) (-1074) - t).toNat = 0 := by omega
    rw [hshift, if_neg hlt.ne]
    exact ⟨rfl, add_zero t⟩
  · have hlog : (2 ^ 53 : ℕ).log2 = 53 := by decide
    have hshift : (max (((2 ^ 53 : ℕ).log2 : ℤ) + t - 52) (-1074) - t).toNat = 1 := by omega
    rw [hshift, if_pos rfl]
    exact ⟨rfl, rfl⟩

/-- What a rounding comes to, if the first shift leaves a significand and an exponent `t`, and the
second one clears the carry. -/
lemma roundWithAccuracy_eq (s : Sign) {m n : ℕ} {e t : ℤ} {accuracy : Accuracy}
    {em : ExtendedMantissa}
    (hfirst : UnpackedFloat.shiftToTargetExponent Format.binary64 m e accuracy = (em, t))
    (hn : em.roundedMantissa = n)
    (hsecond :
      (UnpackedFloat.shiftToTargetExponent Format.binary64 n t .exact).1.mantissa = (carry n t).1 ∧
        (UnpackedFloat.shiftToTargetExponent Format.binary64 n t .exact).2 = (carry n t).2) :
    UnpackedFloat.roundWithAccuracy Format.binary64 s m e accuracy =
      if h : (carry n t).1 = 0 then .zero s
      else .finite s (carry n t).1 (carry n t).2 (Nat.pos_of_ne_zero h) := by
  obtain ⟨hcarry, hcarry'⟩ := hsecond
  unfold UnpackedFloat.roundWithAccuracy
  rw [hfirst]
  dsimp only
  rw [hn]
  simp only [hcarry, hcarry']

/-- The binary logarithm of a significand places the quantity between two powers. -/
lemma log2_bounds {m : ℕ} (hm : m ≠ 0) (e : ℤ) :
    (2 : ℚ) ^ (m.log2 + e) ≤ m * 2 ^ e ∧ (m : ℚ) * 2 ^ e < 2 ^ (m.log2 + e + 1) := by
  have hlow : ((2 ^ m.log2 : ℕ) : ℚ) ≤ m := by exact_mod_cast Nat.log2_self_le hm
  have hhigh : (m : ℚ) < (2 ^ (m.log2 + 1) : ℕ) := by exact_mod_cast Nat.lt_log2_self
  have hunit : (0 : ℚ) < 2 ^ e := by positivity
  constructor
  · rw [zpow_add₀ two_ne_zero, zpow_natCast]
    gcongr
    exact_mod_cast hlow
  · rw [add_right_comm, zpow_add₀ two_ne_zero, ← Nat.cast_succ, zpow_natCast]
    gcongr
    exact_mod_cast hhigh

/-- A quantity of at least 53 bits is rounded to its nearest significand. -/
lemma exists_roundWithAccuracy (s : Sign) {m : ℕ} {e : ℤ} (hm : 2 ^ 52 ≤ m)
    (hq : (2 : ℚ) ^ (-1022 : ℤ) ≤ m * 2 ^ e) :
    ∃ n t h, UnpackedFloat.roundWithAccuracy Format.binary64 s m e .exact =
      .finite s (carry n t).1 (carry n t).2 h ∧ Nearest (m * 2 ^ e) n t := by
  have hzero : m ≠ 0 := by omega
  obtain ⟨hlow, hhigh⟩ := log2_bounds hzero e
  obtain ⟨k, hk⟩ : ∃ k : ℕ, m.log2 = 52 + k :=
    Nat.exists_eq_add_of_le ((Nat.le_log2 hzero).2 hm)
  have ht : -1074 ≤ e + k := by
    have hlt := exponent_lt hq hhigh
    omega
  -- the first shift leaves 53 bits, and rounding may carry into a bit of its own
  have hfirst : UnpackedFloat.shiftToTargetExponent Format.binary64 m e .exact =
      (ExtendedMantissa.ofMantissaAndAccuracy m .exact >>> k, e + k) := by
    have hshift : (max ((m.log2 : ℤ) + e - 52) (-1074) - e).toNat = k := by omega
    rw [shiftToTargetExponent_eq, hshift]
  have hnearest : Nearest (m * 2 ^ e)
      (ExtendedMantissa.ofMantissaAndAccuracy m .exact >>> k).roundedMantissa (e + k) := by
    refine ⟨?_, ?_, ?_⟩
    · convert hlow using 2
      omega
    · convert hhigh using 2
      omega
    · have hunits : (m : ℚ) * 2 ^ e / 2 ^ (e + (k : ℤ)) = m / 2 ^ k := by
        rw [zpow_add₀ two_ne_zero, zpow_natCast]
        field_simp
      rw [hunits]
      exact ((Tracks.exact m).shiftRight k).near
  -- the second shift clears the carry
  have hsecond := shift_carry hnearest.bounds.1 hnearest.bounds.2 ht
  have hpos : 0 < (carry _ (e + k)).1 := lt_of_lt_of_le (Nat.two_pow_pos 52)
    (carry_bounds (e + k) hnearest.bounds.1 hnearest.bounds.2).1
  refine ⟨_, _, hpos, ?_, hnearest⟩
  rw [roundWithAccuracy_eq s hfirst rfl hsecond, dif_neg hpos.ne']

/-- Any quantity is rounded so, once its significand is long enough. -/
lemma exists_round (s : Sign) {m : ℕ} {e : ℤ} (hm : 0 < m)
    (hq : (2 : ℚ) ^ (-1022 : ℤ) ≤ m * 2 ^ e) :
    ∃ n t h, UnpackedFloat.round Format.binary64 s m e =
      .finite s (carry n t).1 (carry n t).2 h ∧ Nearest (m * 2 ^ e) n t := by
  obtain ⟨k, hk⟩ : ∃ k : ℕ, k = (e - max ((m.log2 : ℤ) + e - 52) (-1074)).toNat := ⟨_, rfl⟩
  have hround : UnpackedFloat.round Format.binary64 s m e =
      UnpackedFloat.roundWithAccuracy Format.binary64 s (m * 2 ^ k) (e - k) .exact := by
    unfold UnpackedFloat.round UnpackedFloat.decreaseExponent
    dsimp only
    rw [targetExponent_eq, ← hk, Nat.shiftLeft_eq]
  have hvalue : ((m * 2 ^ k : ℕ) : ℚ) * 2 ^ (e - k) = m * 2 ^ e := by
    rw [zpow_sub₀ two_ne_zero, zpow_natCast]
    push_cast
    field_simp
  have hlong : 2 ^ 52 ≤ m * 2 ^ k := by
    obtain ⟨-, hhigh⟩ := log2_bounds hm.ne' e
    have hlt := exponent_lt hq hhigh
    calc 2 ^ 52 ≤ 2 ^ (m.log2 + k) := Nat.pow_le_pow_right two_pos (by omega)
      _ = 2 ^ m.log2 * 2 ^ k := pow_add _ _ _
      _ ≤ m * 2 ^ k := Nat.mul_le_mul_right _ (Nat.log2_self_le hm.ne')
  rw [hround, ← hvalue]
  exact exists_roundWithAccuracy s hlong (hvalue ▸ hq)

end PointRelaxation.Binary64
