import Mathlib
import PointRelaxation.Binary64

/-!
# Words of binary floating point numbers

A number is known by its word, whose fields can be read in two ways: as the floating point
operations take a number apart, and as an exact quantity. Both ways agree, and a word that is put
together of a significand that fits is read as that again.

* `ofUnpacked_unpack`: both readings of a word agree.
* `ofWord_eq_finite`: the significands and exponents that a word can stand for.
* `unpack_pack`, `ofFloat_ofBits`: what is written is read again.
-/

namespace PointRelaxation.Binary64

open Float.Model
open UnpackedFloat (Sign)

/-! ## Reading a word -/

/-- A number as it is unpacked from a word. -/
def ofUnpacked : UnpackedFloat → Binary64
  | .notANumber => undefined
  | .infinity s => infinite (s == .negative)
  | .zero s => finite (s == .negative) 0 leastExponent
  | .finite s m e _ => finite (s == .negative) m e

lemma ofUnpacked_finite (s : Sign) (m : ℕ) (e : ℤ) (h : 0 < m) :
    ofUnpacked (.finite s m e h) = finite (s == .negative) m e := rfl

/-- A number as it is read off the fields of a word. -/
def ofWord (bits : ℕ) : Binary64 :=
  let negative := bits >>> 63 == 1
  let field : ℕ := (bits >>> 52) % 2048
  let fraction := bits % (1 <<< 52)
  if field = 2047 then if fraction = 0 then infinite negative else undefined
  else if field = 0 then finite negative fraction leastExponent
  else finite negative (fraction + (1 <<< 52)) ((field : ℤ) - 1075)

lemma ofFloat_eq_ofWord (x : Float) : ofFloat x = ofWord x.toBits.toNat := rfl

section

variable (b : BitVec 64)

lemma toNat_unpackMantissa :
    (@UnpackedFloat.unpackMantissa Format.binary64 b).toNat = b.toNat % 2 ^ 52 := by
  simp [UnpackedFloat.unpackMantissa]

lemma toNat_unpackExponent :
    (@UnpackedFloat.unpackExponent Format.binary64 b).toNat =
      b.toNat >>> 52 % 2048 := by
  simp [UnpackedFloat.unpackExponent]

lemma toNat_unpackSign :
    (@UnpackedFloat.unpackSign Format.binary64 b).toNat = b.toNat >>> 63 := by
  have hb := b.isLt
  simp [UnpackedFloat.unpackSign]
  omega

lemma negative_unpackSign :
    (Sign.ofBitVec (@UnpackedFloat.unpackSign Format.binary64 b) == .negative) =
      (b.toNat >>> 63 == 1) := by
  rw [← toNat_unpackSign]
  generalize @UnpackedFloat.unpackSign Format.binary64 b = bit
  revert bit
  decide

lemma unpackExponent_eq_iff (field : BitVec 11) :
    @UnpackedFloat.unpackExponent Format.binary64 b = field ↔
      b.toNat >>> 52 % 2048 = field.toNat := by
  rw [← toNat_unpackExponent]
  exact BitVec.toNat_inj.symm

lemma unpackMantissa_eq_zero_iff :
    @UnpackedFloat.unpackMantissa Format.binary64 b = 0#52 ↔ b.toNat % 2 ^ 52 = 0 := by
  rw [← toNat_unpackMantissa]
  exact BitVec.toNat_inj.symm

/-- The bit above the fraction of a normal number. -/
lemma toNat_implicit_append (fraction : BitVec 52) :
    (1#1 ++ fraction).toNat = fraction.toNat + 2 ^ 52 := by
  rw [BitVec.toNat_append, ← Nat.shiftLeft_add_eq_or_of_lt fraction.isLt, Nat.add_comm]
  rfl

/-- Both readings of a word agree. -/
lemma ofUnpacked_unpack :
    ofUnpacked (UnpackedFloat.unpack Format.binary64 b) = ofWord b.toNat := by
  have hmask : (1 <<< 52 : ℕ) = 2 ^ 52 := rfl
  have hsign := negative_unpackSign b
  have hexponent := toNat_unpackExponent b
  have hones : @UnpackedFloat.unpackExponent Format.binary64 b = -1#11 ↔
      b.toNat >>> 52 % 2048 = 2047 := unpackExponent_eq_iff b (-1#11)
  have hzeros : @UnpackedFloat.unpackExponent Format.binary64 b = 0#11 ↔
      b.toNat >>> 52 % 2048 = 0 := unpackExponent_eq_iff b 0#11
  unfold ofWord UnpackedFloat.unpack
  dsimp only
  rw [hmask]
  by_cases hinfinite : @UnpackedFloat.unpackExponent Format.binary64 b = -1#11
  · -- all bits of the field are set: no finite number
    rw [if_pos hinfinite, if_pos (hones.1 hinfinite)]
    by_cases hfraction : @UnpackedFloat.unpackMantissa Format.binary64 b = 0#52
    · rw [if_pos hfraction, if_pos ((unpackMantissa_eq_zero_iff b).1 hfraction)]
      exact congrArg infinite hsign
    · rw [if_neg hfraction, if_neg (mt (unpackMantissa_eq_zero_iff b).2 hfraction)]
      rfl
  · rw [if_neg hinfinite, if_neg (mt hones.2 hinfinite)]
    by_cases hzero : @UnpackedFloat.unpackExponent Format.binary64 b = 0#11
    · -- no bit of the field is set: the fraction is the significand, and may be zero
      have hfield := hzeros.1 hzero
      rw [if_pos hzero, if_pos hfield]
      by_cases hfraction : @UnpackedFloat.unpackMantissa Format.binary64 b = 0#52
      · rw [dif_pos hfraction, (unpackMantissa_eq_zero_iff b).1 hfraction]
        exact congrArg (finite · 0 leastExponent) hsign
      · rw [dif_neg hfraction]
        rw [ofUnpacked_finite, hsign, hexponent, toNat_unpackMantissa, hfield]
        rfl
    · -- any other field: a leading bit stands above the fraction
      rw [if_neg hzero, if_neg (mt hzeros.2 hzero)]
      rw [ofUnpacked_finite, hsign, toNat_implicit_append, hexponent, toNat_unpackMantissa]
      rfl

end

/-- What a word can stand for: a significand of 53 bits at an exponent within the range, or one of
fewer bits at the least exponent. -/
lemma ofWord_eq_finite {bits : ℕ} {negative : Bool} {m : ℕ} {e : ℤ}
    (h : ofWord bits = finite negative m e) :
    (2 ^ 52 ≤ m ∧ m < 2 ^ 53 ∧ -1074 ≤ e ∧ e ≤ 971) ∨ (m < 2 ^ 52 ∧ e = -1074) := by
  have hmask : (1 <<< 52 : ℕ) = 2 ^ 52 := rfl
  unfold ofWord at h
  dsimp only at h
  rw [hmask] at h
  have hlt : bits % 2 ^ 52 < 2 ^ 52 := Nat.mod_lt _ (by decide)
  split_ifs at h with hinfinite hfraction hzero
  · cases h
    exact .inr ⟨hlt, rfl⟩
  · cases h
    exact .inl ⟨by omega, by omega, by omega, by omega⟩

/-! ## Writing a word -/

/-- A significand of 53 bits is written and read again, unless its exponent is too large. -/
lemma unpack_pack (s : Sign) {m : ℕ} {e : ℤ} (h : 0 < m) (hlow : 2 ^ 52 ≤ m) (hhigh : m < 2 ^ 53)
    (he : -1074 ≤ e) (he' : e ≤ 971) :
    UnpackedFloat.unpack Format.binary64 (UnpackedFloat.pack Format.binary64 (.finite s m e h)) =
      .finite s m e h := by
  obtain ⟨field, hfield⟩ : ∃ field : ℕ, (field : ℤ) = e + 1075 := ⟨(e + 1075).toNat, by omega⟩
  have hbias : (e + Format.binary64.exponentBias + (52 : ℕ)).toNat = field := by
    have hvalue : (Format.binary64.exponentBias : ℤ) = 1023 := rfl
    omega
  have hlog : m.log2 + 1 = Format.binary64.mantissaBits := by
    rw [(Nat.log2_eq_iff h.ne').2 ⟨hlow, hhigh⟩]
    rfl
  have hpack : UnpackedFloat.pack Format.binary64 (.finite s m e h) =
      UnpackedFloat.packComponents Format.binary64 s (BitVec.ofNat 11 field)
        (BitVec.ofNat 52 m) := by
    have hfit : ¬ 2 ^ 11 ≤ field + 1 := by omega
    unfold UnpackedFloat.pack
    dsimp only
    rw [hbias, if_neg hfit, if_pos hlog]
  have hread : (BitVec.ofNat 11 field).toNat = field := by
    rw [BitVec.toNat_ofNat, Nat.mod_eq_of_lt (by omega)]
  have hones : BitVec.ofNat 11 field ≠ -1#11 := fun heq => by
    have hnat : field = 2047 := hread.symm.trans (congrArg BitVec.toNat heq)
    omega
  have hzeros : BitVec.ofNat 11 field ≠ 0#11 := fun heq => by
    have hnat : field = 0 := hread.symm.trans (congrArg BitVec.toNat heq)
    omega
  have hsignificand : (1#1 ++ BitVec.ofNat 52 m).toNat = m := by
    rw [toNat_implicit_append, BitVec.toNat_ofNat]
    omega
  rw [hpack]
  unfold UnpackedFloat.unpack
  simp only [UnpackedFloat.unpackMantissa_packComponents,
    UnpackedFloat.unpackExponent_packComponents, UnpackedFloat.unpackSign_packComponents]
  rw [if_neg hones, if_neg hzeros, Sign.ofBitVec_toBitVec]
  congr 1
  rw [hread]
  have hvalue : (Format.binary64.exponentBias : ℤ) = 1023 := rfl
  omega

/-- A word that stands for a finite number is kept in full. -/
lemma ofFloat_ofBits {w : ℕ} {negative : Bool} {m : ℕ} {e : ℤ} (hw : w < 2 ^ 64)
    (h : ofWord w = finite negative m e) :
    ofFloat (Float.ofBits (UInt64.ofNat w)) = finite negative m e := by
  obtain ⟨b, hb⟩ : ∃ b, b = (UInt64.ofNat w).toBitVec := ⟨_, rfl⟩
  have hword : b.toNat = w := by
    rw [hb]
    exact Nat.mod_eq_of_lt hw
  have hfinite : ¬ @UnpackedFloat.isNaNBits Format.binary64 b := by
    intro hnan
    have hfield : b.toNat >>> 52 % 2048 = 2047 :=
      (unpackExponent_eq_iff b (-1#11)).1 (of_decide_eq_true hnan).1
    rw [hword] at hfield
    unfold ofWord at h
    dsimp only at h
    rw [if_pos hfield] at h
    split_ifs at h
  have hbits : (Float.ofBits (UInt64.ofNat w)).toBits.toNat = b.toNat := by
    have hkept := @UnpackedFloat.pack_unpack Format.binary64 b (by decide)
    rw [if_neg hfinite] at hkept
    rw [hb] at hkept ⊢
    exact congrArg BitVec.toNat hkept
  rw [ofFloat_eq_ofWord, hbits, hword, h]

end PointRelaxation.Binary64
