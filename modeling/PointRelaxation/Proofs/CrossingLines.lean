import PointRelaxation.Proofs.FieldArithmetic
import PointRelaxation.Picture
import PointRelaxation.Proofs.Registry

/-!
# Lines across a picture

A picture is clipped to a frame with a margin around the points, and a declared line is drawn for
the sum of the sides of that frame to either side of its first point. No two positions of the frame
are further apart than that, in whatever direction, so the line leaves the frame at both ends.

* `Picture.Frame.Holds`, `Picture.Frame.HoldsInside`: positions in a frame, and within its border.
* `Picture.holdsInside_frame`: the points of a scene are within the border of its frame.
* `Picture.Frame.abs_le_reach`: how far a position of a frame is from another one.
* `Picture.lines_cross_frame`: all of a declared line that is in the frame is drawn.
-/

namespace PointRelaxation

variable {α : Type} [FieldScalar α]

/-- A position of the line through `a` and `b`, which stand at zero and one. -/
def Vec.onLine (a b : Vec α) (t : α) : Vec α := ⟨a.x + t * (b.x - a.x), a.y + t * (b.y - a.y)⟩

namespace Picture

/-! ## Frames -/

def Frame.Holds (f : Frame α) (v : Vec α) : Prop :=
  (f.low.x ≤ v.x ∧ v.x ≤ f.high.x) ∧ f.low.y ≤ v.y ∧ v.y ≤ f.high.y

def Frame.HoldsInside (f : Frame α) (v : Vec α) : Prop :=
  (f.low.x < v.x ∧ v.x < f.high.x) ∧ f.low.y < v.y ∧ v.y < f.high.y

lemma Frame.HoldsInside.holds {f : Frame α} {v : Vec α} (h : f.HoldsInside v) : f.Holds v :=
  ⟨⟨h.1.1.le, h.1.2.le⟩, h.2.1.le, h.2.2.le⟩

lemma least_le {xs : List α} {x : α} (h : x ∈ xs) : least xs ≤ x := by
  cases xs with
  | nil => exact absurd h List.not_mem_nil
  | cons y ys => exact (Scalar.isLeast_foldl_smaller y ys).2 h

lemma le_greatest {xs : List α} {x : α} (h : x ∈ xs) : x ≤ greatest xs := by
  cases xs with
  | nil => exact absurd h List.not_mem_nil
  | cons y ys => exact (Scalar.isGreatest_foldl_larger y ys).2 h

lemma Frame.holds_around {positions : List (Vec α)} {v : Vec α} (h : v ∈ positions) :
    (around positions).Holds v := by
  have hx : v.x ∈ positions.map Vec.x := List.mem_map_of_mem h
  have hy : v.y ∈ positions.map Vec.y := List.mem_map_of_mem h
  exact ⟨⟨least_le hx, le_greatest hx⟩, least_le hy, le_greatest hy⟩

/-- However small a frame is, there is a margin around it. -/
lemma Frame.exists_margin (f : Frame α) : ∃ margin, 0 < margin ∧ f.widened =
    ⟨⟨f.low.x - margin, f.low.y - margin⟩, ⟨f.high.x + margin, f.high.y + margin⟩⟩ := by
  refine ⟨_, mul_pos ?_ ?_, rfl⟩
  · rw [Scalar.larger_eq_max, Scalar.one_literal]
    exact lt_max_of_lt_right one_pos
  · rw [FieldScalar.ofScientific_eq]
    norm_num

lemma Frame.holdsInside_widened {f : Frame α} {v : Vec α} (h : f.Holds v) :
    f.widened.HoldsInside v := by
  obtain ⟨⟨hleft, hright⟩, hbelow, habove⟩ := h
  obtain ⟨margin, hmargin, hwidened⟩ := f.exists_margin
  rw [hwidened]
  refine ⟨⟨?_, ?_⟩, ?_, ?_⟩
  all_goals
    dsimp only
    linarith

/-- The points of a scene are within the border of its frame. -/
lemma holdsInside_frame {scene : Scene α} {p : Point α} (hp : p ∈ scene.points) :
    (frame scene).HoldsInside p.position :=
  Frame.holdsInside_widened (Frame.holds_around (List.mem_map_of_mem hp))

lemma Frame.reach_pos {f : Frame α} {v : Vec α} (h : f.HoldsInside v) : 0 < f.reach := by
  obtain ⟨⟨hleft, hright⟩, hbelow, habove⟩ := h
  unfold reach
  linarith

/-! ## How far a line has to be drawn -/

/-- No part of a direction is longer than the direction. -/
lemma abs_le_one_of_unit {x y : α} (h : x ^ 2 + y ^ 2 = 1) : |x| ≤ 1 := by
  rw [← sq_le_one_iff_abs_le_one, ← h]
  exact le_add_of_nonneg_right (sq_nonneg y)

/-- Two positions of a frame are at most the sum of its sides apart, whatever the direction is. -/
lemma Frame.abs_le_reach {f : Frame α} {a u : Vec α} {d : α} (hu : u.x ^ 2 + u.y ^ 2 = 1)
    (ha : f.Holds a) (hv : f.Holds ⟨a.x + d * u.x, a.y + d * u.y⟩) : |d| ≤ f.reach := by
  obtain ⟨⟨haleft, haright⟩, habelow, haabove⟩ := ha
  obtain ⟨⟨hleft, hright⟩, hbelow, habove⟩ := hv
  have hx : |d * u.x| ≤ f.high.x - f.low.x := by
    rw [abs_le]
    constructor <;> linarith
  have hy : |d * u.y| ≤ f.high.y - f.low.y := by
    rw [abs_le]
    constructor <;> linarith
  have hux : |u.x| ≤ 1 := abs_le_one_of_unit hu
  have huy : |u.y| ≤ 1 := abs_le_one_of_unit ((add_comm _ _).trans hu)
  -- along each axis the distance is at most that side of the frame
  calc |d| = |d * u.x| * |u.x| + |d * u.y| * |u.y| := by
        rw [abs_mul, abs_mul, mul_assoc, mul_assoc, ← sq, ← sq, sq_abs, sq_abs, ← mul_add, hu,
          mul_one]
    _ ≤ |d * u.x| + |d * u.y| :=
        add_le_add (mul_le_of_le_one_right (abs_nonneg _) hux)
          (mul_le_of_le_one_right (abs_nonneg _) huy)
    _ ≤ f.reach := add_le_add hx hy

/-- What is no further from `a` than a line is drawn to either side lies on what is drawn. -/
lemma exists_onLine_of_abs_le {a u : Vec α} {d reach : α} (hreach : 0 < reach)
    (hd : |d| ≤ reach) : ∃ s, 0 ≤ s ∧ s ≤ 1 ∧
      (⟨a.x + d * u.x, a.y + d * u.y⟩ : Vec α) =
        .onLine ⟨a.x - u.x * reach, a.y - u.y * reach⟩ ⟨a.x + u.x * reach, a.y + u.y * reach⟩ s := by
  obtain ⟨hlow, hhigh⟩ := abs_le.1 hd
  have hwhole : 0 < 2 * reach := by linarith
  refine ⟨(d + reach) / (2 * reach), div_nonneg (by linarith) hwhole.le, ?_, ?_⟩
  · rw [div_le_one hwhole]
    linarith
  · simp only [Vec.onLine, Vec.mk.injEq]
    constructor
    all_goals
      field_simp
      ring

/-! ## What is drawn -/

/-- The direction of a displacement as a picture computes it. -/
def direction (v : Vec α) : Vec α := ⟨v.x / Vec.norm v, v.y / Vec.norm v⟩

variable [RootScalar α]

lemma direction_unit {v : Vec α} (h : Vec.norm v ≠ 0) :
    (direction v).x ^ 2 + (direction v).y ^ 2 = 1 := by
  simp only [direction, div_pow]
  rw [← add_div, ← Vec.normSq_eq, ← Vec.norm_sq]
  exact div_self (pow_ne_zero 2 h)

omit [RootScalar α] in
lemma lineThrough?_eq_some {reach : α} {a b : Point α}
    (h : Vec.norm (Vec.between a.position b.position) ≠ 0) :
    let u := direction (Vec.between a.position b.position)
    lineThrough? reach a b = some (.line
      ⟨a.position.x - u.x * reach, a.position.y - u.y * reach⟩
      ⟨a.position.x + u.x * reach, a.position.y + u.y * reach⟩ (a.stable && b.stable)) := by
  have hsame : ¬ Scalar.Same (Vec.norm (Vec.between a.position b.position)) 0.0 := by
    rw [Scalar.zero_literal]
    exact fun hsame => h (hsame.1.antisymm hsame.2)
  exact if_neg hsame

/-- The picture of a scene is clipped to a frame, and every point of the scene is strictly inside
it. Of a declared line whose points stand apart a segment is drawn, from the first point for a
certain length to either side: in the unit direction `u` of the line, for the sum of the sides of
the frame. Every position of the whole line that is in the frame lies on that segment. -/
theorem lines_cross_frame (scene : Scene α) :
    let f := frame scene
    Statement.clip f.low f.high ∈ statements scene ∧
    (∀ p ∈ scene.points, f.HoldsInside p.position) ∧
    ∀ a ∈ scene.points, ∀ b ∈ scene.points, (a.name, b.name) ∈ scene.lines →
      a.position ≠ b.position →
      ∃ u : Vec α, Vec.dot u u = 1 ∧ Vec.cross u (Vec.between a.position b.position) = 0 ∧
        let reach := (f.high.x - f.low.x) + (f.high.y - f.low.y)
        let start : Vec α := ⟨a.position.x - u.x * reach, a.position.y - u.y * reach⟩
        let finish : Vec α := ⟨a.position.x + u.x * reach, a.position.y + u.y * reach⟩
        Statement.line start finish (a.stable && b.stable) ∈ statements scene ∧
        ∀ t, f.Holds (.onLine a.position b.position t) →
          ∃ s, 0 ≤ s ∧ s ≤ 1 ∧ Vec.onLine a.position b.position t = .onLine start finish s := by
  intro f
  refine ⟨?_, fun p hp => holdsInside_frame hp, fun a ha b hb hline hapart => ?_⟩
  · simp [statements, f]
  · have hne : Vec.norm (Vec.between a.position b.position) ≠ 0 :=
      fun hzero => hapart (Vec.distance_eq_zero_iff.1 hzero)
    have hunit := direction_unit hne
    refine ⟨direction (Vec.between a.position b.position), ?_, ?_, ?_, fun t ht => ?_⟩
    · rw [← hunit]
      unfold Vec.dot
      ring
    · unfold Vec.cross direction
      ring
    · have hdrawn : lineOf? scene f.reach (a.name, b.name) = lineThrough? f.reach a b := by
        unfold lineOf?
        rw [Scene.find?_eq_some_iff.2 ⟨ha, rfl⟩, Scene.find?_eq_some_iff.2 ⟨hb, rfl⟩]
        rfl
      have hmem := List.mem_filterMap.2 ⟨_, hline, hdrawn.trans (lineThrough?_eq_some hne)⟩
      unfold statements
      simp only [List.mem_append]
      exact .inl (.inl (.inr hmem))
    · -- a position of the line is some length away from its first point, along `u`
      have hlength : Vec.onLine a.position b.position t =
          ⟨a.position.x + t * Vec.norm (Vec.between a.position b.position) *
              (direction (Vec.between a.position b.position)).x,
            a.position.y + t * Vec.norm (Vec.between a.position b.position) *
              (direction (Vec.between a.position b.position)).y⟩ := by
        simp only [Vec.onLine, direction, mul_assoc, mul_div_cancel₀ _ hne]
        rfl
      rw [hlength] at ht ⊢
      exact exists_onLine_of_abs_le (Frame.reach_pos (holdsInside_frame ha))
        (Frame.abs_le_reach hunit (holdsInside_frame ha).holds ht)

/-- The origin, another point, and the line through them. -/
noncomputable def diagonal (v : Vec ℝ) : Scene ℝ where
  decimals := 0
  points := [.unvisited "A" (fun _ _ => .ok 0) ⟨0, 0⟩, .unvisited "B" (fun _ _ => .ok 0) v]
  lines := [("A", "B")]
  segments := []
  polygons := []
  measures := []
  nodup := (by decide : ["A", "B"].Nodup)

lemma frame_diagonal : frame (diagonal ⟨3, 4⟩) = ⟨⟨-(2 / 5), -(2 / 5)⟩, ⟨17 / 5, 22 / 5⟩⟩ := by
  have hleast : ∀ {x : ℝ}, 0 ≤ x → least [0, x] = 0 := fun h =>
    (Scalar.smaller_eq_min _ _).trans (min_eq_left h)
  have hgreatest : ∀ {x : ℝ}, 0 ≤ x → greatest [0, x] = x := fun h =>
    (Scalar.larger_eq_max _ _).trans (max_eq_right h)
  have haround : Frame.around ((diagonal ⟨3, 4⟩).points.map Point.position) =
      ⟨⟨0, 0⟩, ⟨3, 4⟩⟩ := by
    show Frame.mk ⟨least [0, 3], least [0, 4]⟩ ⟨greatest [0, 3], greatest [0, 4]⟩ = _
    rw [hleast zero_le_three, hleast zero_le_four, hgreatest zero_le_three,
      hgreatest zero_le_four]
  unfold frame
  rw [haround]
  unfold Frame.widened
  simp only [Scalar.larger_eq_max, FieldScalar.ofScientific_eq]
  norm_num

/-- The line is drawn across the frame, which it leaves on the upper side. -/
theorem lines_cross_frame_diagonal :
    (∀ p ∈ (diagonal ⟨3, 4⟩).points, (frame (diagonal ⟨3, 4⟩)).HoldsInside p.position) ∧
    (frame (diagonal ⟨3, 4⟩)).Holds ⟨33 / 10, 22 / 5⟩ ∧
    ∃ start finish : Vec ℝ, Statement.line start finish false ∈ statements (diagonal ⟨3, 4⟩) ∧
      ∃ s, 0 ≤ s ∧ s ≤ 1 ∧ (⟨33 / 10, 22 / 5⟩ : Vec ℝ) = .onLine start finish s := by
  obtain ⟨-, hpoints, hlines⟩ := lines_cross_frame (diagonal ⟨3, 4⟩)
  have hborder : (frame (diagonal ⟨3, 4⟩)).Holds ⟨33 / 10, 22 / 5⟩ := by
    rw [frame_diagonal]
    refine ⟨⟨?_, ?_⟩, ?_, ?_⟩
    all_goals norm_num
  have hposition : (⟨33 / 10, 22 / 5⟩ : Vec ℝ) = .onLine ⟨0, 0⟩ ⟨3, 4⟩ (11 / 10) := by
    simp only [Vec.onLine, Vec.mk.injEq]
    norm_num
  have hapart : (⟨0, 0⟩ : Vec ℝ) ≠ ⟨3, 4⟩ := by simp
  obtain ⟨u, -, -, hdrawn, hon⟩ := hlines _ (.head _) _ (.tail _ (.head _)) (.head _) hapart
  refine ⟨hpoints, hborder, _, _, hdrawn, ?_⟩
  rw [hposition] at hborder ⊢
  exact hon _ hborder

end Picture
end PointRelaxation
