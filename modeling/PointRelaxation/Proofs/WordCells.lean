import Mathlib.Algebra.Order.Group.Nat
import PointRelaxation.Binary64
import PointRelaxation.Proofs.Exact

/-!
# The cells of a cloud stand for positions

The places of a cell are held in signed words, and the ratio of a word is never too large for a
scalar. So a position stands for each cell that a cloud proposes, and the evaluation of a cloud can
fail by its rule only.

* `WordScalar`: scalars that hold the ratios of words; `Binary64.exists_nearest?` shows that the
  floating point numbers do.
* `Candidates.exists_place_of_seed`: each cell of a cloud has a position.
-/

namespace PointRelaxation

/-- Scalars that hold each ratio with a signed word above the line. -/
class WordScalar (α : Type) [Scalar α] : Prop where
  exists_ratio (n : ℤ) (d : ℕ) : 0 < d → -Candidates.wordEnd ≤ n → n < Candidates.wordEnd →
    ∃ x : α, Scalar.ratio? n d = some x

instance : WordScalar Exact where
  exists_ratio n d _ _ _ := ⟨(n / d : ℚ), rfl⟩

/-! ## Ratios as floating point numbers -/

namespace Binary64

lemma roundHalfEven_le (num den : ℕ) : roundHalfEven num den ≤ num / den + 1 := by
  unfold roundHalfEven
  dsimp only
  split_ifs <;> omega

lemma unitExponent_le {num : ℕ} (den : ℕ) (h : num.log2 ≤ 63) : unitExponent num den ≤ 11 := by
  unfold unitExponent leastExponent
  dsimp only
  split_ifs <;> omega

/-- The unit in the last place is at most two places below that of a significand of 53 bits. -/
lemma log2_le_unitExponent (num den : ℕ) :
    (num.log2 : ℤ) ≤ den.log2 + unitExponent num den + 53 := by
  unfold unitExponent
  dsimp only
  split_ifs <;> omega

/-- A ratio counted in its unit and rounded is a significand of hardly more than 54 bits. -/
lemma significand_le (num : ℕ) {den : ℕ} (hden : den ≠ 0) :
    (if 0 ≤ unitExponent num den then
      roundHalfEven num (den <<< (unitExponent num den).toNat)
    else roundHalfEven (num <<< (-unitExponent num den).toNat) den) ≤ 2 ^ 54 := by
  have hlog := log2_le_unitExponent num den
  have hnum : num < 2 ^ (num.log2 + 1) := Nat.lt_log2_self
  have hlow : 2 ^ den.log2 ≤ den := Nat.log2_self_le hden
  generalize unitExponent num den = e at hlog
  split_ifs with he
  · obtain ⟨k, rfl⟩ := Int.eq_ofNat_of_zero_le he
    rw [Int.toNat_natCast, Nat.shiftLeft_eq]
    refine (roundHalfEven_le _ _).trans (Nat.div_lt_of_lt_mul ?_)
    calc num < 2 ^ (num.log2 + 1) := hnum
      _ ≤ 2 ^ (den.log2 + k + 54) := Nat.pow_le_pow_right Nat.two_pos (by omega)
      _ = 2 ^ den.log2 * 2 ^ k * 2 ^ 54 := by rw [pow_add, pow_add]
      _ ≤ den * 2 ^ k * 2 ^ 54 := by gcongr
  · obtain ⟨k, hk⟩ : ∃ k : ℕ, e = -k := ⟨(-e).toNat, by omega⟩
    rw [hk, neg_neg, Int.toNat_natCast, Nat.shiftLeft_eq]
    refine (roundHalfEven_le _ _).trans (Nat.div_lt_of_lt_mul ?_)
    calc num * 2 ^ k < 2 ^ (num.log2 + 1) * 2 ^ k := by gcongr
      _ = 2 ^ (num.log2 + 1 + k) := (pow_add _ _ _).symm
      _ ≤ 2 ^ (den.log2 + 54) := Nat.pow_le_pow_right Nat.two_pos (by omega)
      _ = 2 ^ den.log2 * 2 ^ 54 := pow_add _ _ _
      _ ≤ den * 2 ^ 54 := by gcongr

/-- A ratio whose upper part is at most the end of a word is nearest to some number. -/
lemma exists_nearest? (negative : Bool) {num den : ℕ} (hden : den ≠ 0) (hnum : num ≤ 2 ^ 63) :
    ∃ x, nearest? negative num den = some x := by
  unfold nearest?
  by_cases hzero : num = 0
  · exact ⟨_, if_pos hzero⟩
  · have hlog : num.log2 ≤ 63 := Nat.lt_succ_iff.1 ((Nat.log2_lt hzero).2 (by omega))
    have hexponent := unitExponent_le den hlog
    have hsignificand := significand_le num hden
    rw [if_neg hzero]
    dsimp only
    -- the exponent field stays far below that of the infinite numbers
    refine ⟨_, if_pos ?_⟩
    rw [Nat.shiftLeft_eq (unitExponent num den - leastExponent).toNat, Nat.shiftLeft_eq 2047]
    unfold leastExponent
    omega

end Binary64

instance : WordScalar Float where
  exists_ratio n d hd hlow hhigh := by
    unfold Candidates.wordEnd at hlow hhigh
    exact Binary64.exists_nearest? _ hd.ne' (by omega)

/-! ## Cells in words -/

/-- A cell whose places fit into signed words. -/
def Cell.IsWord (c : Cell) : Prop :=
  (-Candidates.wordEnd ≤ c.x ∧ c.x < Candidates.wordEnd) ∧
    (-Candidates.wordEnd ≤ c.y ∧ c.y < Candidates.wordEnd)

instance (c : Cell) : Decidable c.IsWord := inferInstanceAs (Decidable (_ ∧ _))

variable {α : Type} [Scalar α]

namespace Candidates

lemma wordFloor_bounds (x : α) : -wordEnd ≤ wordFloor x ∧ wordFloor x < wordEnd := by
  unfold wordFloor
  split
  · split_ifs with h
    · exact h
    · decide
  · decide

lemma isWord_snap (center : Vec α) (cells : α) (d : Vec α) : (snap center cells d).IsWord :=
  ⟨wordFloor_bounds _, wordFloor_bounds _⟩

/-- The cells of a cloud are words. -/
lemma isWord_of_around {decimals : ℤ} {center : Vec α} {ds : List (Vec α)} {m : Candidates α}
    (h : around decimals center ds = .ok m) : ∀ c ∈ m.cells, c.IsWord := by
  obtain ⟨cells, rfl⟩ := around_eq_ok h
  intro c hc
  rw [cells_distinct, List.mem_eraseDups] at hc
  obtain ⟨d, -, rfl⟩ := List.mem_map.1 hc
  exact isWord_snap center cells d

end Candidates

/-! ## Positions of words -/

variable [WordScalar α]

namespace Grid

lemma exists_coordinate (decimals : ℕ) {n : ℤ}
    (h : -Candidates.wordEnd ≤ n ∧ n < Candidates.wordEnd) :
    ∃ x : α, coordinate decimals n = .ok x := by
  obtain ⟨x, hx⟩ := WordScalar.exists_ratio (α := α) n (10 ^ decimals) (by positivity) h.1 h.2
  have hratio : Scalar.ratio n (10 ^ decimals) = .ok x := by
    unfold Scalar.ratio
    rw [hx]
  exact ⟨x, hratio⟩

/-- A position stands for each cell in words. -/
lemma exists_place (decimals : ℕ) {c : Cell} (h : c.IsWord) :
    ∃ v : Vec α, place decimals c = .ok v := by
  obtain ⟨x, hx⟩ := exists_coordinate (α := α) decimals h.1
  obtain ⟨y, hy⟩ := exists_coordinate (α := α) decimals h.2
  exact ⟨⟨x, y⟩, bind_eq_ok.2 ⟨x, hx, bind_eq_ok.2 ⟨y, hy, rfl⟩⟩⟩

end Grid

/-- A position stands for each cell of a fresh cloud. -/
lemma Candidates.exists_place_of_seed {σ : Type} [Draws σ α] {decimals : ℕ} {center : Vec α}
    {samples : ℕ} {radius : α} {s : σ} {m : Candidates α}
    (h : (seed decimals center samples radius s).1 = .ok m) :
    ∀ c ∈ m.cells, ∃ v : Vec α, Grid.place decimals c = .ok v :=
  fun c hc => Grid.exists_place decimals (isWord_of_around h c hc)

end PointRelaxation
