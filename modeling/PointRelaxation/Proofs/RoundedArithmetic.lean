import Mathlib.Tactic.Linarith
import Mathlib.Tactic.NormNum
import PointRelaxation.Proofs.Exact

/-!
# Rounded arithmetic and the grid

In the standard model of floating point arithmetic a result is the exact one up to a small relative
error. The coordinate of a cell is then only near the quotient it stands for, and counting it in
cells again takes a product and a sum, each with an error of its own. Together these errors stay
below a half, so a cell still holds the position that stands for it, up to some distance from the
origin.

* `RoundedScalar`: scalars of the standard model.
* `floor_of_rounds`: the error of the way to a coordinate and back is less than a half.
* `Grid.roundTrips`: near the origin each cell holds the position that stands for it.
-/

namespace PointRelaxation

/-! ## The standard model -/

/-- The largest relative error of a result. -/
def roundoff : ℚ := 1 / 2 ^ 53

/-- `r` is a result that should have been `q`. -/
def Rounds (q r : ℚ) : Prop := ∃ δ : ℚ, |δ| ≤ roundoff ∧ r = q * (1 + δ)

/-- The quantities that the standard model is about: zero, and what is neither too small nor too
large to be rounded with a small relative error. -/
def IsNormal (q : ℚ) : Prop := q = 0 ∨ ((2 : ℚ) ^ (-1022 : ℤ) ≤ |q| ∧ |q| < 2 ^ (1023 : ℤ))

/-- Scalars of the standard model. Among the whole numbers those of at most 53 significant bits are
scalars. -/
class RoundedScalar (α : Type) [Scalar α] where
  /-- The quantity that a scalar stands for, if it is a number. -/
  value? : α → Option ℚ
  ratio_rounds (n : ℤ) (d : ℕ) : 0 < d → IsNormal (n / d) →
    ∃ (x : α) (r : ℚ), Scalar.ratio? n d = some x ∧ value? x = some r ∧ Rounds (n / d) r
  mul_rounds {x y : α} {p q : ℚ} : value? x = some p → value? y = some q →
    IsNormal p → IsNormal q → IsNormal (p * q) →
    ∃ r, value? (x * y) = some r ∧ Rounds (p * q) r
  add_rounds {x y : α} {p q : ℚ} : value? x = some p → value? y = some q →
    IsNormal p → IsNormal q → IsNormal (p + q) →
    ∃ r, value? (x + y) = some r ∧ Rounds (p + q) r
  whole_exact (m e : ℕ) : m < 2 ^ 53 → e ≤ 900 →
    ∃ x : α, Scalar.ofInt? ((m * 2 ^ e : ℕ) : ℤ) = some x ∧
      value? x = some ((m * 2 ^ e : ℕ) : ℚ)
  half_exact : value? (0.5 : α) = some (1 / 2)
  floor_value {x : α} {q : ℚ} : value? x = some q → Scalar.floor x = .whole ⌊q⌋

lemma Rounds.refl (q : ℚ) : Rounds q q :=
  ⟨0, by norm_num [roundoff], by ring⟩

/-- Exact arithmetic makes no errors. -/
instance : RoundedScalar Exact where
  value? x := some x
  ratio_rounds n d _ _ := ⟨(n / d : ℚ), (n / d : ℚ), rfl, rfl, .refl _⟩
  mul_rounds := by
    rintro x y p q hx hy - - -
    cases hx
    cases hy
    exact ⟨_, rfl, .refl _⟩
  add_rounds := by
    rintro x y p q hx hy - - -
    cases hx
    cases hy
    exact ⟨_, rfl, .refl _⟩
  whole_exact m e _ _ := ⟨((m * 2 ^ e : ℕ) : ℚ), rfl, rfl⟩
  half_exact := congrArg some (by norm_num : (0.5 : ℚ) = 1 / 2)
  floor_value := by
    rintro x q hx
    cases hx
    rfl

/-! ## The way to a coordinate and back -/

/-- The error of a result is small against any bound of what it should have been. -/
lemma Rounds.abs_sub_le {q r bound : ℚ} (h : Rounds q r) (hq : |q| ≤ bound) :
    |r - q| ≤ bound * roundoff := by
  obtain ⟨δ, hδ, rfl⟩ := h
  calc |q * (1 + δ) - q| = |q| * |δ| := by rw [← abs_mul]; congr 1; ring
    _ ≤ bound * roundoff := mul_le_mul hq hδ (abs_nonneg δ) ((abs_nonneg q).trans hq)

lemma Rounds.eq_zero {r : ℚ} (h : Rounds 0 r) : r = 0 := by
  obtain ⟨δ, -, rfl⟩ := h
  exact zero_mul _

lemma abs_le_of_near (q c : ℚ) : |q| ≤ |c| + |q - c| ∧ |c| ≤ |q| + |q - c| := by
  constructor
  · calc |q| = |c + (q - c)| := by congr 1; ring
      _ ≤ |c| + |q - c| := abs_add_le c (q - c)
  · calc |c| = |q - (q - c)| := by congr 1; ring
      _ ≤ |q| + |q - c| := abs_sub q (q - c)

/-- A result is of the size of what it should have been. -/
lemma Rounds.size {q r : ℚ} (h : Rounds q r) : |q| / 2 ≤ |r| ∧ |r| ≤ 2 * |q| := by
  have herror : |r - q| ≤ |q| / 2 := by
    refine (h.abs_sub_le le_rfl).trans ?_
    have hq := abs_nonneg q
    norm_num [roundoff]
    linarith
  obtain ⟨hle, hge⟩ := abs_le_of_near r q
  constructor <;> linarith [abs_nonneg q]

section

variable {k : ℤ} {cells r₁ r₂ r₃ : ℚ}

/-- Made a length and counted in cells again, a count is hardly off. -/
lemma abs_length_sub_le (hcells : 0 < cells) (hk : |(k : ℚ)| ≤ 2 ^ 50)
    (h₁ : Rounds (k / cells) r₁) : |r₁ * cells - k| ≤ 1 / 8 := by
  obtain ⟨δ, hδ, rfl⟩ := h₁
  have hcount : Rounds k (k / cells * (1 + δ) * cells) := ⟨δ, hδ, by field_simp⟩
  refine (hcount.abs_sub_le hk).trans ?_
  norm_num [roundoff]

/-- The rounding of that product adds about as much. -/
lemma abs_count_sub_le (hcells : 0 < cells) (hk : |(k : ℚ)| ≤ 2 ^ 50)
    (h₁ : Rounds (k / cells) r₁) (h₂ : Rounds (r₁ * cells) r₂) : |r₂ - k| ≤ 13 / 50 := by
  have hlength := abs_length_sub_le hcells hk h₁
  have hbound : |r₁ * cells| ≤ 2 ^ 50 + 1 / 8 := by
    rw [abs_le] at hk hlength ⊢
    constructor <;> linarith
  have hcount : |r₂ - r₁ * cells| ≤ (2 ^ 50 + 1 / 8) * roundoff := h₂.abs_sub_le hbound
  norm_num [roundoff] at hcount
  rw [abs_le] at hlength hcount ⊢
  constructor <;> linarith

/-- With a half added the count is still less than a half off, so that its floor is the count that
was made a length. -/
lemma floor_of_rounds (hcells : 0 < cells) (hk : |(k : ℚ)| ≤ 2 ^ 50)
    (h₁ : Rounds (k / cells) r₁) (h₂ : Rounds (r₁ * cells) r₂) (h₃ : Rounds (r₂ + 1 / 2) r₃) :
    ⌊r₃⌋ = k := by
  have hcount := abs_count_sub_le hcells hk h₁ h₂
  have hbound : |r₂ + 1 / 2| ≤ 2 ^ 50 + 1 := by
    rw [abs_le] at hk hcount ⊢
    constructor <;> linarith
  have hsum : |r₃ - (r₂ + 1 / 2)| ≤ (2 ^ 50 + 1) * roundoff := h₃.abs_sub_le hbound
  norm_num [roundoff] at hsum
  rw [abs_le] at hcount hsum
  rw [Int.floor_eq_iff]
  constructor <;> linarith

/-! ## Nothing is too small or too large on the way -/

lemma isNormal_of_bounds {q : ℚ} (hlow : 1 / 10 ^ 23 ≤ |q|) (hhigh : |q| ≤ 10 ^ 23) :
    IsNormal q := by
  refine .inr ⟨?_, ?_⟩
  · calc (2 : ℚ) ^ (-1022 : ℤ) ≤ 2 ^ (-80 : ℤ) := zpow_le_zpow_right₀ (by norm_num) (by norm_num)
      _ ≤ 1 / 10 ^ 23 := by norm_num
      _ ≤ |q| := hlow
  · calc |q| ≤ 10 ^ 23 := hhigh
      _ < 2 ^ (80 : ℤ) := by norm_num
      _ ≤ 2 ^ (1023 : ℤ) := zpow_le_zpow_right₀ (by norm_num) (by norm_num)

lemma isNormal_half : IsNormal (1 / 2) := by
  refine isNormal_of_bounds ?_ ?_ <;> norm_num [abs_of_pos]

lemma isNormal_cells (hone : 1 ≤ cells) (hcells : cells ≤ 10 ^ 22) : IsNormal cells := by
  refine isNormal_of_bounds ?_ ?_
  · rw [abs_of_pos (by linarith)]
    refine le_trans ?_ hone
    norm_num
  · rw [abs_of_pos (by linarith)]
    refine hcells.trans ?_
    norm_num

/-- What is near a quantity of at least a half is not small either. -/
lemma isNormal_of_near {q c : ℚ} (h : |q - c| ≤ 13 / 50) (hlow : 1 / 2 ≤ |c|)
    (hhigh : |c| ≤ 2 ^ 51) : IsNormal q := by
  obtain ⟨hle, hge⟩ := abs_le_of_near q c
  refine isNormal_of_bounds ?_ ?_
  · norm_num
    linarith
  · norm_num at hhigh ⊢
    linarith

lemma one_le_abs_cast (hzero : k ≠ 0) : (1 : ℚ) ≤ |(k : ℚ)| := by
  rw [← Int.cast_abs]
  exact_mod_cast Int.one_le_abs hzero

/-- A half beside a whole number is nowhere near zero. -/
lemma half_le_abs_add_half (k : ℤ) : 1 / 2 ≤ |(k : ℚ) + 1 / 2| := by
  rcases le_or_gt 0 k with hk | hk
  · have hcast : (0 : ℚ) ≤ k := by exact_mod_cast hk
    rw [abs_of_nonneg (by linarith)]
    linarith
  · have hcast : (k : ℚ) ≤ -1 := by exact_mod_cast Int.le_sub_one_of_lt hk
    rw [abs_of_nonpos (by linarith)]
    linarith

lemma size_quotient (hzero : k ≠ 0) (hone : 1 ≤ cells) (hcells : cells ≤ 10 ^ 22)
    (hk : |(k : ℚ)| ≤ 2 ^ 50) : 1 / 10 ^ 22 ≤ |k / cells| ∧ |k / cells| ≤ 2 ^ 50 := by
  have hpos : 0 < cells := by linarith
  rw [abs_div, abs_of_pos hpos]
  exact ⟨div_le_div₀ (abs_nonneg _) (one_le_abs_cast hzero) hpos hcells,
    (div_le_self (abs_nonneg _) hone).trans hk⟩

lemma isNormal_quotient (hone : 1 ≤ cells) (hcells : cells ≤ 10 ^ 22)
    (hk : |(k : ℚ)| ≤ 2 ^ 50) : IsNormal (k / cells) := by
  rcases eq_or_ne k 0 with rfl | hzero
  · left
    rw [Int.cast_zero, zero_div]
  · obtain ⟨hlow, hhigh⟩ := size_quotient hzero hone hcells hk
    refine isNormal_of_bounds (le_trans ?_ hlow) (hhigh.trans ?_) <;> norm_num

/-- The coordinate of a cell, and what its product with the number of cells should be. -/
lemma isNormal_length (hone : 1 ≤ cells) (hcells : cells ≤ 10 ^ 22) (hk : |(k : ℚ)| ≤ 2 ^ 50)
    (h₁ : Rounds (k / cells) r₁) : IsNormal r₁ ∧ IsNormal (r₁ * cells) := by
  rcases eq_or_ne k 0 with rfl | hzero
  · rw [Int.cast_zero, zero_div] at h₁
    obtain rfl := h₁.eq_zero
    exact ⟨.inl rfl, .inl (zero_mul _)⟩
  · have hlength := abs_length_sub_le (by linarith) hk h₁
    have hle := one_le_abs_cast hzero
    obtain ⟨hlow, hhigh⟩ := size_quotient hzero hone hcells hk
    obtain ⟨hhalf, htwice⟩ := h₁.size
    refine ⟨isNormal_of_bounds ?_ ?_, isNormal_of_near (hlength.trans ?_) ?_ ?_⟩
    all_goals norm_num at hlow hhigh hk ⊢
    all_goals linarith

/-- That product as it comes out, and its sum with a half. -/
lemma isNormal_count (hone : 1 ≤ cells) (hk : |(k : ℚ)| ≤ 2 ^ 50)
    (h₁ : Rounds (k / cells) r₁) (h₂ : Rounds (r₁ * cells) r₂) :
    IsNormal r₂ ∧ IsNormal (r₂ + 1 / 2) := by
  have hcount := abs_count_sub_le (by linarith) hk h₁ h₂
  have hsum : IsNormal (r₂ + 1 / 2) := by
    refine isNormal_of_near (c := k + 1 / 2) ?_ (half_le_abs_add_half k) ?_
    · rwa [add_sub_add_right_eq_sub]
    · rw [abs_le] at hk ⊢
      constructor <;> linarith
  rcases eq_or_ne k 0 with rfl | hzero
  · rw [Int.cast_zero, zero_div] at h₁
    obtain rfl := h₁.eq_zero
    rw [zero_mul] at h₂
    exact ⟨.inl h₂.eq_zero, hsum⟩
  · have hle := one_le_abs_cast hzero
    exact ⟨isNormal_of_near hcount (by linarith) (by linarith), hsum⟩

end

/-! ## Cells -/

namespace Grid

variable {α : Type} [Scalar α] [RoundedScalar α] {decimals : ℕ}

/-- The number of cells along a unit of length is a scalar: `10 ^ d` is `5 ^ d` with `d` zeros
behind it, and up to `5 ^ 22` the powers of five have at most 53 bits. -/
lemma exists_cells (hd : decimals ≤ 22) :
    ∃ c : α, Scalar.ofInt ((10 ^ decimals : ℕ) : ℤ) = .ok c ∧
      RoundedScalar.value? c = some ((10 ^ decimals : ℕ) : ℚ) := by
  have hfive : 5 ^ decimals < 2 ^ 53 :=
    lt_of_le_of_lt (Nat.pow_le_pow_right (by decide) hd) (by decide)
  obtain ⟨c, hc, hvalue⟩ := RoundedScalar.whole_exact (α := α) (5 ^ decimals) decimals hfive
    (by omega)
  have hten : 5 ^ decimals * 2 ^ decimals = 10 ^ decimals := (mul_pow 5 2 decimals).symm
  rw [hten] at hc hvalue
  refine ⟨c, ?_, hvalue⟩
  unfold Scalar.ofInt
  rw [hc]

lemma cells_bounds (hd : decimals ≤ 22) :
    (1 : ℚ) ≤ (10 ^ decimals : ℕ) ∧ ((10 ^ decimals : ℕ) : ℚ) ≤ 10 ^ 22 := by
  have hpow : 0 < 10 ^ decimals := by positivity
  constructor
  · exact_mod_cast hpow
  · exact_mod_cast Nat.pow_le_pow_right (by decide) hd

/-- Near the origin a cell has a coordinate, which is the quotient that it stands for, rounded. -/
lemma coordinate_rounds (hd : decimals ≤ 22) {k : ℤ} (hk : |(k : ℚ)| ≤ 2 ^ 50) :
    ∃ (x : α) (r : ℚ), coordinate decimals k = .ok x ∧ RoundedScalar.value? x = some r ∧
      Rounds (k / (10 ^ decimals : ℕ)) r := by
  obtain ⟨hone, hmax⟩ := cells_bounds hd
  obtain ⟨x, r, hratio, hr, hrounds⟩ := RoundedScalar.ratio_rounds (α := α) k (10 ^ decimals)
    (by positivity) (isNormal_quotient hone hmax hk)
  refine ⟨x, r, ?_, hr, hrounds⟩
  change Scalar.ratio k (10 ^ decimals) = .ok x
  unfold Scalar.ratio
  rw [hratio]

/-- Near the origin the coordinate of a cell is counted as that cell. -/
lemma index_of_coordinate (hd : decimals ≤ 22) {k : ℤ} (hk : |k| ≤ 2 ^ 50) {x : α}
    (h : coordinate decimals k = .ok x) : index decimals x = .ok k := by
  obtain ⟨hone, hmax⟩ := cells_bounds hd
  have hk' : |(k : ℚ)| ≤ 2 ^ 50 := by
    rw [← Int.cast_abs]
    exact_mod_cast hk
  -- the quotient
  obtain ⟨x', r₁, hx', hr₁, h₁⟩ := coordinate_rounds (α := α) hd hk'
  obtain rfl : x = x' := Except.ok.inj (h.symm.trans hx')
  -- the product
  obtain ⟨cells, hcells, hvalue⟩ := exists_cells (α := α) hd
  obtain ⟨hnormal₁, hproduct⟩ := isNormal_length hone hmax hk' h₁
  obtain ⟨r₂, hr₂, h₂⟩ := RoundedScalar.mul_rounds hr₁ hvalue hnormal₁ (isNormal_cells hone hmax)
    hproduct
  -- the sum
  obtain ⟨hnormal₂, hsum⟩ := isNormal_count hone hk' h₁ h₂
  obtain ⟨r₃, hr₃, h₃⟩ := RoundedScalar.add_rounds hr₂ RoundedScalar.half_exact hnormal₂
    isNormal_half hsum
  have hfloor : Scalar.floorInt (x * cells + 0.5) = .ok k := by
    unfold Scalar.floorInt
    rw [RoundedScalar.floor_value hr₃, floor_of_rounds (by linarith) hk' h₁ h₂ h₃]
  exact bind_eq_ok.2 ⟨x * cells, bind_eq_ok.2 ⟨cells, hcells, rfl⟩, hfloor⟩

/-- Near the origin each cell holds the position that stands for it. -/
theorem roundTrips (hd : decimals ≤ 22) {c : Cell} (hx : |c.x| ≤ 2 ^ 50) (hy : |c.y| ≤ 2 ^ 50) :
    RoundTrips α decimals c := by
  intro v hv
  obtain ⟨x, hx', hv⟩ := bind_eq_ok.1 hv
  obtain ⟨y, hy', hv⟩ := bind_eq_ok.1 hv
  cases hv
  exact bind_eq_ok.2 ⟨c.x, index_of_coordinate hd hx hx',
    bind_eq_ok.2 ⟨c.y, index_of_coordinate hd hy hy', rfl⟩⟩

end Grid

end PointRelaxation
