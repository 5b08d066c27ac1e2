import Mathlib.Tactic.Ring
import PointRelaxation.Text.Decimal

/-!
# Digits of naturals

A natural is written with digits, of which there is at least one, and can be read back from them. So
names that are told apart by a number differ.

* `Text.digits_injective`: different naturals have different digits.
* `Text.ofDigitChars_lowDigits`: what is read from low digits behind others.
-/

namespace PointRelaxation.Text

/-! ## All digits -/

lemma toList_toString (n : ℕ) : (toString n).toList = digits n := by
  rw [Nat.toString_eq_repr, Nat.toList_repr]
  rfl

lemma digits_ne_nil (n : ℕ) : digits n ≠ [] := Nat.toDigits_ne_nil

lemma isDigit_of_mem_digits {n : ℕ} {c : Char} (h : c ∈ digits n) : c.isDigit :=
  Nat.isDigit_of_mem_toDigits (by decide) (by decide) h

lemma ofDigitChars_digits (n : ℕ) : Nat.ofDigitChars 10 (digits n) 0 = n :=
  Nat.ofDigitChars_ten_toDigits

/-- A natural is told by its digits, because they can be read. -/
lemma digits_injective : Function.Injective digits :=
  Function.LeftInverse.injective (g := (Nat.ofDigitChars 10 · 0)) ofDigitChars_digits

/-! ## Low digits -/

lemma isDigit_of_mem_lowDigits {k n : ℕ} {c : Char} (h : c ∈ lowDigits k n) : c.isDigit := by
  induction k generalizing n with
  | zero => exact absurd h List.not_mem_nil
  | succ k ih =>
    rcases List.mem_append.1 h with hhigh | hlow
    · exact ih hhigh
    · have hall : ∀ d < 10, (Nat.digitChar d).isDigit := by decide
      rw [List.mem_singleton.1 hlow]
      exact hall _ (Nat.mod_lt _ (by decide))

lemma ofDigitChars_digitChar {d : ℕ} (hd : d < 10) (n : ℕ) :
    Nat.ofDigitChars 10 [Nat.digitChar d] n = 10 * n + d := by
  have hvalue : ∀ d < 10, (Nat.digitChar d).toNat - '0'.toNat = d := by decide
  rw [Nat.ofDigitChars_cons, hvalue d hd]
  rfl

@[simp] lemma length_lowDigits (k n : ℕ) : (lowDigits k n).length = k := by
  induction k generalizing n with
  | zero => rfl
  | succ k ih => simp [lowDigits, ih]

/-- Read behind other digits, the low digits of a natural add what it is beyond the higher ones. -/
lemma ofDigitChars_lowDigits (k n start : ℕ) :
    Nat.ofDigitChars 10 (lowDigits k n) start = 10 ^ k * start + n % 10 ^ k := by
  induction k generalizing n with
  | zero => simp [lowDigits, Nat.ofDigitChars, Nat.mod_one]
  | succ k ih =>
    rw [lowDigits, Nat.ofDigitChars_append, ih,
      ofDigitChars_digitChar (Nat.mod_lt n (by decide)), pow_succ', Nat.mod_mul]
    ring

lemma ofDigitChars_zeros (j n : ℕ) :
    Nat.ofDigitChars 10 (List.replicate j '0') n = 10 ^ j * n := by
  induction j generalizing n with
  | zero => simp [Nat.ofDigitChars]
  | succ j ih =>
    rw [List.replicate_succ, Nat.ofDigitChars_cons, Nat.sub_self, Nat.add_zero, ih, pow_succ,
      mul_assoc]

end PointRelaxation.Text
