import Mathlib.Data.Prod.Lex
import Mathlib.Order.Basic
import PointRelaxation.Binary64

/-!
# The order of scores

Choosing a best candidate needs two laws of the order: it is total among numbers, and it is
transitive. Binary floating point numbers obey both; an element that is no number is below nothing
and above nothing.

* `OrderedScalar` holds the laws.
* `Binary64.le_iff_rank` reads the comparison of floating point numbers as that of their ranks in a
  linear order, from which the laws follow.
-/

namespace PointRelaxation

/-- Scalars among whose numbers the order is total and transitive, and whose lowest score is a
number. -/
class OrderedScalar (α : Type) [Scalar α] : Prop where
  le_total (a b : α) : a ≤ a → b ≤ b → a ≤ b ∨ b ≤ a
  le_trans (a b c : α) : a ≤ b → b ≤ c → a ≤ c
  lowest_le_lowest : (Scalar.lowest : α) ≤ Scalar.lowest

/-! ## Floating point numbers -/

namespace Binary64

open Float.Model (UnpackedFloat)

/-- The rank of a number: its sign and whether it is infinite, then its exponent, then its
significand. Both zeros have one rank, and an element that is no number has none. -/
def rank : UnpackedFloat → Option (ℤ ×ₗ ℤ ×ₗ ℤ)
  | .notANumber => none
  | .infinity .negative => some (toLex (-2, toLex (0, 0)))
  | .finite .negative m e _ => some (toLex (-1, toLex (-e, -m)))
  | .zero _ => some (toLex (0, toLex (0, 0)))
  | .finite .positive m e _ => some (toLex (1, toLex (e, m)))
  | .infinity .positive => some (toLex (2, toLex (0, 0)))

/-- Numbers of one sign compare by exponent, then by significand. -/
lemma isLE_then_compare (e₁ e₂ : ℤ) (m₁ m₂ : ℕ) :
    ((compare e₁ e₂).then (compare m₁ m₂)).isLE ↔ e₁ < e₂ ∨ e₁ = e₂ ∧ m₁ ≤ m₂ := by
  rcases lt_trichotomy e₁ e₂ with h | h | h
  · simp [compare_lt_iff_lt.2 h, h]
  · subst h
    simp [Nat.isLE_compare]
  · simp [compare_gt_iff_gt.2 h, h.not_gt, h.ne']

lemma isGE_then_compare (e₁ e₂ : ℤ) (m₁ m₂ : ℕ) :
    ((compare e₁ e₂).then (compare m₁ m₂)).isGE ↔ e₂ < e₁ ∨ e₁ = e₂ ∧ m₂ ≤ m₁ := by
  rcases lt_trichotomy e₁ e₂ with h | h | h
  · simp [compare_lt_iff_lt.2 h, h.not_gt, h.ne]
  · subst h
    simp [Nat.isGE_compare]
  · simp [compare_gt_iff_gt.2 h, h]

/-- One number is at most another exactly if both have a rank and the ranks compare so. -/
lemma le_iff_rank (a b : UnpackedFloat) :
    a.le b ↔ ∃ x y, rank a = some x ∧ rank b = some y ∧ x ≤ y := by
  unfold UnpackedFloat.le
  match a, b with
  | .finite .positive m₁ e₁ _, .finite .positive m₂ e₂ _ =>
    dsimp only [UnpackedFloat.compare, rank]
    simp [Prod.Lex.le_iff, isLE_then_compare]
  | .finite .negative m₁ e₁ _, .finite .negative m₂ e₂ _ =>
    dsimp only [UnpackedFloat.compare, rank]
    simp [Prod.Lex.le_iff, isGE_then_compare]
  | .finite .positive .., .finite .negative .. | .finite .negative .., .finite .positive .. =>
    dsimp only [UnpackedFloat.compare, rank]
    simp [Prod.Lex.le_iff]
  | .notANumber, _ =>
    dsimp only [UnpackedFloat.compare, rank]
    simp
  | .infinity s, .notANumber | .zero s, .notANumber | .finite s .., .notANumber =>
    cases s <;> dsimp only [UnpackedFloat.compare, rank] <;> simp
  | .infinity s, .infinity t =>
    cases s <;> cases t <;> dsimp only [UnpackedFloat.compare, rank] <;>
      simp [Prod.Lex.le_iff] <;> decide
  | .infinity s, .zero t | .zero s, .infinity t | .zero s, .zero t | .infinity s, .finite t ..
  | .finite s .., .infinity t | .zero s, .finite t .. | .finite s .., .zero t =>
    cases s <;> cases t <;> dsimp only [UnpackedFloat.compare, rank] <;> simp [Prod.Lex.le_iff]

lemma float_le_iff (a b : Float) :
    a ≤ b ↔ ∃ x y, rank a.toModel.unpack = some x ∧ rank b.toModel.unpack = some y ∧ x ≤ y := by
  rw [← le_iff_rank]
  change decide (a.toModel ≤ b.toModel) = true ↔ _
  rw [decide_eq_true_iff]
  exact Iff.rfl

lemma swap_then_compare (e₁ e₂ : ℤ) (m₁ m₂ : ℕ) :
    ((compare e₁ e₂).then (compare m₁ m₂)).swap = (compare e₂ e₁).then (compare m₂ m₁) := by
  rw [Ordering.swap_then, ← Std.OrientedOrd.eq_swap, ← Std.OrientedOrd.eq_swap]

/-- The order of two numbers is turned when they are exchanged. -/
lemma swap_compare (a b : UnpackedFloat) :
    (a.compare b).map Ordering.swap = b.compare a := by
  match a, b with
  | .finite .positive m₁ e₁ _, .finite .positive m₂ e₂ _ =>
    exact congrArg some (swap_then_compare e₁ e₂ m₁ m₂)
  | .finite .negative m₁ e₁ _, .finite .negative m₂ e₂ _ =>
    exact congrArg (fun o => some o.swap) (swap_then_compare e₁ e₂ m₁ m₂)
  | .finite .positive .., .finite .negative .. | .finite .negative .., .finite .positive .. => rfl
  | .notANumber, b =>
    cases b with
    | infinity s => cases s <;> rfl
    | finite s _ _ _ => cases s <;> rfl
    | zero s => rfl
    | notANumber => rfl
  | .infinity s, .notANumber | .zero s, .notANumber | .finite s .., .notANumber =>
    cases s <;> rfl
  | .infinity s, .infinity t | .infinity s, .zero t | .zero s, .infinity t | .zero s, .zero t
  | .infinity s, .finite t .. | .finite s .., .infinity t | .zero s, .finite t ..
  | .finite s .., .zero t =>
    cases s <;> cases t <;> rfl

/-- One number is below another if it is at most that and not the other way round. -/
lemma float_lt_iff_le (a b : Float) : a < b ↔ a ≤ b ∧ ¬ b ≤ a := by
  change decide (a.toModel < b.toModel) = true ↔
    decide (a.toModel ≤ b.toModel) = true ∧ ¬ decide (b.toModel ≤ a.toModel) = true
  rw [decide_eq_true_iff, decide_eq_true_iff, decide_eq_true_iff]
  change (a.toModel.unpack.compare b.toModel.unpack == some .lt) = true ↔
    (a.toModel.unpack.compare b.toModel.unpack).any (·.isLE) = true ∧
      ¬ (b.toModel.unpack.compare a.toModel.unpack).any (·.isLE) = true
  rw [← swap_compare a.toModel.unpack]
  rcases a.toModel.unpack.compare b.toModel.unpack with _ | _ | _ | _ <;> decide

end Binary64

instance : OrderedScalar Float where
  le_total a b ha hb := by
    simp only [Binary64.float_le_iff] at *
    obtain ⟨x, -, hx, -⟩ := ha
    obtain ⟨y, -, hy, -⟩ := hb
    rcases le_total x y with h | h
    · exact .inl ⟨x, y, hx, hy, h⟩
    · exact .inr ⟨y, x, hy, hx, h⟩
  le_trans a b c hab hbc := by
    rw [Binary64.float_le_iff] at *
    obtain ⟨x, y, hx, hy, hxy⟩ := hab
    obtain ⟨y', z, hy', hz, hyz⟩ := hbc
    obtain rfl : y = y' := Option.some.inj (hy.symm.trans hy')
    exact ⟨x, z, hx, hz, hxy.trans hyz⟩
  lowest_le_lowest := by decide +kernel

end PointRelaxation
