import PointRelaxation.Proofs.FieldArithmetic
import PointRelaxation.Rule

/-!
# The middle of points

The middle of some points is where the farthest of them is nearest. Its score is the largest
distance, negated, so it depends on which points there are and not on their order or number. No
position has two points both nearer than half their distance, and only their midpoint has both
within exactly that.

* `Score.atMiddleOf_eq_ok_iff`: the score is the largest distance, negated.
* `Vec.sq_distance_midpoint_le`: the parallelogram law as a bound; the optimum rests on it.
* `Score.middle_encloses`: what the score says about circles that enclose the points.
-/

namespace PointRelaxation

variable {α : Type} [FieldScalar α]

/-! ## Two points -/

namespace Vec

def midpoint (a b : Vec α) : Vec α := ⟨(a.x + b.x) * 0.5, (a.y + b.y) * 0.5⟩

lemma midpoint_eq (a b : Vec α) : midpoint a b = ⟨(a.x + b.x) / 2, (a.y + b.y) / 2⟩ := by
  rw [midpoint, Scalar.half_literal, mul_one_div, mul_one_div]

variable [RootScalar α]

/-- The parallelogram law, for the triangle of a position and two points. -/
lemma sq_distance_add_sq_distance (p a b : Vec α) : distance p a ^ 2 + distance p b ^ 2 =
    2 * (distance p (midpoint a b) ^ 2 + (distance a b / 2) ^ 2) := by
  simp only [div_pow, distance_sq, midpoint_eq]
  ring

/-- A circle that encloses two points is wider than half their distance by as much as its center is
away from their midpoint. -/
lemma sq_distance_midpoint_le {p a b : Vec α} {r : α} (ha : distance p a ≤ r)
    (hb : distance p b ≤ r) :
    distance p (midpoint a b) ^ 2 + (distance a b / 2) ^ 2 ≤ r ^ 2 := by
  have hsqa : distance p a ^ 2 ≤ r ^ 2 := pow_le_pow_left₀ (distance_nonneg p a) ha 2
  have hsqb : distance p b ^ 2 ≤ r ^ 2 := pow_le_pow_left₀ (distance_nonneg p b) hb 2
  have hlaw := sq_distance_add_sq_distance p a b
  linarith

lemma half_distance_nonneg (a b : Vec α) : 0 ≤ distance a b / 2 :=
  div_nonneg (distance_nonneg a b) zero_le_two

lemma half_distance_le {p a b : Vec α} {r : α} (ha : distance p a ≤ r) (hb : distance p b ≤ r) :
    distance a b / 2 ≤ r := by
  have hr : 0 ≤ r := (distance_nonneg p a).trans ha
  refine (pow_le_pow_iff_left₀ (half_distance_nonneg a b) hr two_ne_zero).1 ?_
  exact (le_add_of_nonneg_left (sq_nonneg _)).trans (sq_distance_midpoint_le ha hb)

/-- The midpoint is half the distance away from either point. -/
lemma distance_midpoint (a b : Vec α) :
    distance (midpoint a b) a = distance a b / 2 ∧ distance (midpoint a b) b = distance a b / 2 := by
  rw [distance_eq_iff, distance_eq_iff, div_pow, distance_sq]
  have hnonneg := half_distance_nonneg a b
  refine ⟨⟨hnonneg, ?_⟩, hnonneg, ?_⟩
  all_goals
    simp only [midpoint_eq]
    ring

/-- Only the midpoint has both points within half their distance. -/
lemma eq_midpoint_iff {p a b : Vec α} : p = midpoint a b ↔
    distance p a ≤ distance a b / 2 ∧ distance p b ≤ distance a b / 2 := by
  constructor
  · intro h
    obtain ⟨ha, hb⟩ := distance_midpoint a b
    rw [h]
    exact ⟨ha.le, hb.le⟩
  · intro ⟨ha, hb⟩
    have hcenter : distance p (midpoint a b) ^ 2 ≤ 0 :=
      nonpos_of_add_le_left (sq_distance_midpoint_le ha hb)
    exact distance_eq_zero_iff.1 (pow_eq_zero_iff two_ne_zero |>.1 (hcenter.antisymm (sq_nonneg _)))

end Vec

/-! ## The largest distance -/

namespace Score

/-- The distances from a position to points. -/
abbrev distances (p : Vec α) (points : List (Vec α)) : Set α :=
  Vec.distance p '' {q | q ∈ points}

/-- The score is the largest distance, negated; there is none exactly if there are no points. -/
lemma atMiddleOf_eq_ok_iff {p : Vec α} {points : List (Vec α)} {s : α} :
    atMiddleOf p points = .ok s ↔ IsGreatest (distances p points) (-s) := by
  cases points with
  | nil => simp [atMiddleOf, IsGreatest]
  | cons q qs =>
    have hdistances : distances p (q :: qs) =
        {d | d ∈ Vec.distance p q :: qs.map (Vec.distance p)} := by
      ext d
      simp [distances, eq_comm]
    have hgreatest := Scalar.isGreatest_foldl_larger (Vec.distance p q) (qs.map (Vec.distance p))
    rw [List.foldl_map, ← hdistances] at hgreatest
    show Except.ok (-_) = Except.ok s ↔ _
    rw [Except.ok.injEq, neg_eq_iff_eq_neg]
    constructor
    · intro h
      exact h ▸ hgreatest
    · intro h
      exact hgreatest.unique h

/-- A score exists as soon as there is a point. -/
lemma exists_atMiddleOf (p : Vec α) {points : List (Vec α)} (hne : points ≠ []) :
    ∃ s, atMiddleOf p points = .ok s := by
  cases points with
  | nil => exact absurd rfl hne
  | cons q qs => exact ⟨_, rfl⟩

/-- More points do not raise the score. -/
lemma atMiddleOf_anti {p : Vec α} {points points' : List (Vec α)} {s s' : α}
    (hsub : ∀ q ∈ points, q ∈ points') (h : atMiddleOf p points = .ok s)
    (h' : atMiddleOf p points' = .ok s') : s' ≤ s := by
  rw [atMiddleOf_eq_ok_iff] at h h'
  exact neg_le_neg_iff.1 (h.mono h' (Set.image_mono hsub))

/-- The middle of points, which are at least one. From any position: the score is the largest
distance to a point, negated; it is that of any list of the same points, in whatever order and
however often each of them; it is not raised by more points; and it is at most minus half the
distance of any two of the points. Of two points alone it reaches that bound at their midpoint, and
nowhere else. -/
theorem middle_encloses [RootScalar α] {points : List (Vec α)} (hne : points ≠ []) (p : Vec α) :
    (∃ s, atMiddleOf p points = .ok s ∧
      IsGreatest (Vec.distance p '' {q | q ∈ points}) (-s) ∧
      (∀ points' : List (Vec α), (∀ q, q ∈ points' ↔ q ∈ points) →
        atMiddleOf p points' = .ok s) ∧
      (∀ points' : List (Vec α), (∀ q ∈ points, q ∈ points') →
        ∃ s', atMiddleOf p points' = .ok s' ∧ s' ≤ s) ∧
      ∀ a ∈ points, ∀ b ∈ points, s ≤ -(Vec.distance a b / 2)) ∧
    ∀ a b : Vec α, atMiddleOf p [a, b] = .ok (-(Vec.distance a b / 2)) ↔
      p = Vec.midpoint a b := by
  constructor
  · obtain ⟨s, hs⟩ := exists_atMiddleOf p hne
    have hgreatest := atMiddleOf_eq_ok_iff.1 hs
    refine ⟨s, hs, hgreatest, ?_, ?_, ?_⟩
    · -- the distances as a set do not know of order and number
      intro points' hsame
      have hset : {q | q ∈ points'} = {q | q ∈ points} := Set.ext hsame
      rw [atMiddleOf_eq_ok_iff, distances, hset]
      exact hgreatest
    · intro points' hsub
      obtain ⟨q, qs, rfl⟩ := List.exists_cons_of_ne_nil hne
      obtain ⟨s', hs'⟩ := exists_atMiddleOf p (List.ne_nil_of_mem (hsub q (.head qs)))
      exact ⟨s', hs', atMiddleOf_anti hsub hs hs'⟩
    · -- a circle around `p` that encloses all points encloses `a` and `b`
      intro a ha b hb
      exact le_neg_of_le_neg (Vec.half_distance_le (hgreatest.2 ⟨a, ha, rfl⟩)
        (hgreatest.2 ⟨b, hb, rfl⟩))
  · intro a b
    rw [atMiddleOf_eq_ok_iff, neg_neg, Vec.eq_midpoint_iff]
    constructor
    · intro hgreatest
      exact ⟨hgreatest.2 ⟨a, by simp, rfl⟩, hgreatest.2 ⟨b, by simp, rfl⟩⟩
    · intro ⟨ha, hb⟩
      -- with both distances bounded, the bound is met by the one from the midpoint
      obtain rfl := Vec.eq_midpoint_iff.2 ⟨ha, hb⟩
      refine ⟨⟨a, by simp, (Vec.distance_midpoint a b).1⟩, ?_⟩
      intro d ⟨q, hq, hd⟩
      rcases List.mem_pair.1 hq with rfl | rfl
      · exact hd ▸ ha
      · exact hd ▸ hb

/-- Three points around the origin, two of them as far as `a`. -/
def triangle (a : ℝ) : List (Vec ℝ) := [⟨a, 0⟩, ⟨-a, 0⟩, ⟨0, 1⟩]

/-- Seen from the origin the middle of three points scores minus three, which is half the distance
of the first two. It is the same in another order and with one of them listed twice, and a point
further out does not raise it. -/
theorem middle_encloses_triangle : triangle 3 ≠ [] ∧
    atMiddleOf ⟨0, 0⟩ (triangle 3) = .ok (-3) ∧
    atMiddleOf ⟨0, 0⟩ [⟨0, 1⟩, ⟨-3, 0⟩, ⟨0, 1⟩, ⟨3, 0⟩] = .ok (-3 : ℝ) ∧
    (∃ s, atMiddleOf ⟨0, 0⟩ (⟨0, 5⟩ :: triangle 3) = .ok s ∧ s ≤ -3) ∧
    atMiddleOf ⟨0, 0⟩ [⟨3, 0⟩, ⟨-3, 0⟩] = .ok (-(Vec.distance ⟨3, 0⟩ (⟨-3, 0⟩ : Vec ℝ) / 2)) := by
  have hne : triangle 3 ≠ [] := List.cons_ne_nil _ _
  obtain ⟨⟨s, hs, hgreatest, hsame, hmore, hhalf⟩, htwo⟩ := middle_encloses hne ⟨0, 0⟩
  have hwide : Vec.distance ⟨3, 0⟩ (⟨-3, 0⟩ : Vec ℝ) = 6 := by
    rw [Vec.distance_eq_iff]
    norm_num
  obtain rfl : s = -3 := by
    have hle := hhalf ⟨3, 0⟩ (by simp [triangle]) ⟨-3, 0⟩ (by simp [triangle])
    obtain ⟨q, hq, hd⟩ := hgreatest.1
    -- whichever point is the farthest, it is at most three away
    have hthree : Vec.distance ⟨0, 0⟩ q ≤ 3 := by
      rw [Vec.distance_le_iff zero_le_three]
      change q ∈ triangle 3 at hq
      simp only [triangle, List.mem_cons, List.not_mem_nil, or_false] at hq
      rcases hq with rfl | rfl | rfl <;> norm_num
    rw [hwide] at hle
    rw [hd] at hthree
    linarith
  refine ⟨hne, hs, hsame _ fun q => ?_, hmore _ fun q hq => .tail _ hq, (htwo _ _).2 ?_⟩
  · simp only [triangle, List.mem_cons, List.not_mem_nil, or_false]
    tauto
  · simp [Vec.midpoint_eq]

end Score
end PointRelaxation
