import Mathlib.Analysis.SpecialFunctions.Complex.Arg
import Mathlib.Tactic.FieldSimp
import Mathlib.Tactic.Linarith
import Mathlib.Tactic.NormNum
import Mathlib.Tactic.Ring
import PointRelaxation.Vec.Direction

/-!
# The arithmetic of an ordered field

Scalars that are computed with as in an ordered field, so that what the geometry of a rule says can
be derived. Roots are a law of their own: a rational number need not have one, and much of the
geometry does without.

* `FieldScalar`: scalars that are an ordered field.
* `RootScalar`: what is asked of roots.
* The real numbers are both.
* `Vec.distance_eq_zero_iff`, `Vec.distance_eq_iff`, `Vec.distance_le_iff`: lengths are those of
  plane geometry.
-/

namespace PointRelaxation

/-- Scalars that are an ordered field. A numeral with a decimal point stands for the rational number
that it writes. -/
class FieldScalar (α : Type) extends Scalar α, Field α, LinearOrder α, IsStrictOrderedRing α where
  abs_eq (x : α) : Scalar.abs x = |x|
  ofScientific_eq (m : ℕ) (fraction : Bool) (e : ℕ) :
    (OfScientific.ofScientific m fraction e : α) = ((OfScientific.ofScientific m fraction e : ℚ) : α)

/-- Scalars in which what is not negative has a root that is not negative. -/
class RootScalar (α : Type) [FieldScalar α] : Prop where
  sqrt_nonneg {x : α} : 0 ≤ x → 0 ≤ Scalar.sqrt x
  sqrt_mul_sqrt {x : α} : 0 ≤ x → Scalar.sqrt x * Scalar.sqrt x = x

/-! ## The real numbers -/

noncomputable instance : Scalar ℝ where
  decLt := inferInstanceAs (DecidableLT ℝ)
  decLe := inferInstanceAs (DecidableLE ℝ)
  abs x := |x|
  sqrt := Real.sqrt
  sin := Real.sin
  cos := Real.cos
  atan2 height base := Complex.arg ⟨base, height⟩
  pi := Real.pi
  lowest := ((-2 ^ 1024 : ℤ) : ℝ)
  ofInt? n := some n
  ratio? n d := some (n / d)
  floor x := .whole ⌊x⌋

noncomputable instance : FieldScalar ℝ :=
  { (inferInstance : Scalar ℝ), (inferInstance : Field ℝ), (inferInstance : LinearOrder ℝ),
    (inferInstance : IsStrictOrderedRing ℝ) with
    abs_eq := fun _ => rfl
    ofScientific_eq := fun m fraction e => (Rat.cast_ofScientific m fraction e).symm }

instance : RootScalar ℝ where
  sqrt_nonneg {x} _ := Real.sqrt_nonneg x
  sqrt_mul_sqrt := Real.mul_self_sqrt

/-! ## Scalars -/

namespace Scalar

variable {α : Type} [FieldScalar α]

lemma zero_literal : (0.0 : α) = 0 := by
  rw [FieldScalar.ofScientific_eq]
  norm_num

lemma one_literal : (1.0 : α) = 1 := by
  rw [FieldScalar.ofScientific_eq]
  norm_num

lemma half_literal : (0.5 : α) = 1 / 2 := by
  rw [FieldScalar.ofScientific_eq]
  norm_num

lemma larger_eq_max (a b : α) : larger a b = max a b := by
  unfold larger
  split_ifs with h
  · exact (max_eq_right h.le).symm
  · exact (max_eq_left (not_lt.1 h)).symm

lemma smaller_eq_min (a b : α) : smaller a b = min a b := by
  unfold smaller
  split_ifs with h
  · exact (min_eq_right h.le).symm
  · exact (min_eq_left (not_lt.1 h)).symm

/-- Of two items one is chosen that is ahead of both. The choice from a list, two at a time, is then
one of its items and ahead of all of them. -/
lemma foldl_choice {β : Type} {r : β → β → Prop} {choose : β → β → β}
    (hrefl : ∀ a, r a a) (htrans : ∀ {a b c}, r a b → r b c → r a c)
    (hchoose : ∀ a b, (choose a b = a ∨ choose a b = b) ∧ r (choose a b) a ∧ r (choose a b) b)
    (x : β) (xs : List β) :
    xs.foldl choose x ∈ x :: xs ∧ ∀ y ∈ x :: xs, r (xs.foldl choose x) y := by
  induction xs generalizing x with
  | nil => exact ⟨List.mem_singleton_self x, List.forall_mem_singleton.2 (hrefl x)⟩
  | cons y ys ih =>
    obtain ⟨hone, hx, hy⟩ := hchoose x y
    obtain ⟨hmem, hahead⟩ := ih (choose x y)
    have hfirst : r (ys.foldl choose (choose x y)) (choose x y) := hahead _ (.head ys)
    rw [List.foldl_cons]
    constructor
    · rcases List.mem_cons.1 hmem with heq | hrest
      · -- the first two are left over, and one of them was chosen
        rw [heq]
        rcases hone with hleft | hright
        · simp [hleft]
        · simp [hright]
      · exact .tail x (.tail y hrest)
    · intro z hz
      simp only [List.mem_cons] at hz
      rcases hz with rfl | rfl | hz
      · exact htrans hfirst hx
      · exact htrans hfirst hy
      · exact hahead z (.tail _ hz)

lemma isGreatest_foldl_larger (x : α) (xs : List α) :
    IsGreatest {y | y ∈ x :: xs} (xs.foldl larger x) := by
  refine foldl_choice (r := (· ≥ ·)) le_refl ge_trans (fun a b => ?_) x xs
  rw [larger_eq_max]
  exact ⟨max_choice a b, le_max_left a b, le_max_right a b⟩

lemma isLeast_foldl_smaller (x : α) (xs : List α) :
    IsLeast {y | y ∈ x :: xs} (xs.foldl smaller x) := by
  refine foldl_choice (r := (· ≤ ·)) le_refl le_trans (fun a b => ?_) x xs
  rw [smaller_eq_min]
  exact ⟨min_choice a b, min_le_left a b, min_le_right a b⟩

lemma total_eq_sum (xs : List α) : total xs = xs.sum := by
  unfold total
  rw [zero_literal, List.sum_eq_foldl]

end Scalar

/-! ## Lengths -/

namespace Vec

variable {α : Type} [FieldScalar α]

lemma shortest_eq : (shortest : α) = 1 / 10 ^ 12 := by
  unfold shortest
  rw [FieldScalar.ofScientific_eq]
  norm_num

lemma shortest_pos : (0 : α) < shortest := by
  rw [shortest_eq]
  positivity

lemma normSq_eq (v : Vec α) : normSq v = v.x ^ 2 + v.y ^ 2 := by
  unfold normSq dot
  ring

lemma normSq_nonneg (v : Vec α) : 0 ≤ normSq v := by
  rw [normSq_eq]
  positivity

lemma normSq_eq_zero_iff {v : Vec α} : normSq v = 0 ↔ v.x = 0 ∧ v.y = 0 := by
  rw [normSq_eq, add_eq_zero_iff_of_nonneg (sq_nonneg v.x) (sq_nonneg v.y), sq_eq_zero_iff,
    sq_eq_zero_iff]

lemma normSq_between (a b : Vec α) : normSq (between a b) = (a.x - b.x) ^ 2 + (a.y - b.y) ^ 2 := by
  rw [normSq_eq]
  unfold between
  ring

variable [RootScalar α]

lemma norm_nonneg (v : Vec α) : 0 ≤ norm v :=
  RootScalar.sqrt_nonneg (normSq_nonneg v)

lemma norm_sq (v : Vec α) : norm v ^ 2 = normSq v := by
  rw [sq]
  exact RootScalar.sqrt_mul_sqrt (normSq_nonneg v)

lemma distance_nonneg (a b : Vec α) : 0 ≤ distance a b :=
  norm_nonneg (between a b)

lemma distance_sq (a b : Vec α) : distance a b ^ 2 = (a.x - b.x) ^ 2 + (a.y - b.y) ^ 2 := by
  unfold distance
  rw [norm_sq, normSq_between]

/-- Only positions that are the same have no distance. -/
lemma distance_eq_zero_iff {a b : Vec α} : distance a b = 0 ↔ a = b := by
  have hzero : normSq (between a b) = 0 ↔ a = b := by
    rw [normSq_eq_zero_iff, Vec.mk.injEq]
    show b.x - a.x = 0 ∧ b.y - a.y = 0 ↔ a.x = b.x ∧ a.y = b.y
    rw [sub_eq_zero, sub_eq_zero, eq_comm, eq_comm (a := b.y)]
  rw [← hzero, ← norm_sq, sq_eq_zero_iff]
  rfl

/-- Distances are told by their squares. -/
lemma distance_eq_iff {a b : Vec α} {r : α} :
    distance a b = r ↔ 0 ≤ r ∧ (a.x - b.x) ^ 2 + (a.y - b.y) ^ 2 = r ^ 2 := by
  rw [← distance_sq]
  constructor
  · rintro rfl
    exact ⟨distance_nonneg a b, rfl⟩
  · rintro ⟨hr, hsq⟩
    exact (pow_left_inj₀ (distance_nonneg a b) hr two_ne_zero).1 hsq

lemma distance_le_iff {a b : Vec α} {r : α} (hr : 0 ≤ r) :
    distance a b ≤ r ↔ (a.x - b.x) ^ 2 + (a.y - b.y) ^ 2 ≤ r ^ 2 := by
  rw [← distance_sq]
  exact (pow_le_pow_iff_left₀ (distance_nonneg a b) hr two_ne_zero).symm

end Vec
end PointRelaxation
