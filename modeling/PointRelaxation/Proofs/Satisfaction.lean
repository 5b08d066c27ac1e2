import PointRelaxation.Proofs.FieldArithmetic
import PointRelaxation.Proofs.Failure
import PointRelaxation.Rule

/-!
# What a score of zero means

The primitives that measure an error score its negation, and a combined rule adds such scores up.
In exact arithmetic no score is then positive, so that errors cannot make up for each other: a sum
of zero means that every single constraint is met.

* `Constraint.Met`: when a position meets a constraint, said without its score.
* `Constraint.score_spec`: a constraint scores zero where it is met and less elsewhere.
* `Rule.combine_eq_ok_iff`: when a combined rule has a score, and which.
* `combined_constraints`: what the score of combined constraints means.
-/

namespace PointRelaxation

/-- What can be asked of a position, with all that it is about. -/
inductive Constraint (α : Type) where
  | atPosition (x y : α)
  | onCircle (center : Vec α) (radius : α)
  | atDistanceEqual (a b : α)
  | atAngle (angle : α) (a vertex c : Vec α)
  | translatedByVector (origin offset : Vec α)
  | translatedBySegment (origin start finish : Vec α)
  | atMiddleOf (points : List (Vec α))
  | alignedWith (a b : Vec α)

/-- A constraint that is found when a rule is evaluated: what it is about can depend on the trial
position and on where the points stand, and looking it up can fail. -/
abbrev Demand (α : Type) := Vec α → Places α → Except (Fault α) (Constraint α)

section

variable {α : Type} [Scalar α]

/-- The signed angle at `vertex` from the ray through `a` to the ray through `c`, by the sine and
the cosine that the two products of the rays come to. -/
def Vec.signedAngle (a vertex c : Vec α) : α :=
  let u := between vertex a
  let v := between vertex c
  Scalar.atan2 (cross u v / (norm u * norm v)) (dot u v / (norm u * norm v))

namespace Constraint

/-- The score of a position. -/
def score (p : Vec α) : Constraint α → Except (Fault α) α
  | atPosition x y => .ok (Score.atPosition p x y)
  | onCircle center radius => .ok (Score.onCircle p center radius)
  | atDistanceEqual a b => .ok (Score.atDistanceEqual a b)
  | atAngle angle a vertex c => Score.atAngle angle a vertex c
  | translatedByVector origin offset => .ok (Score.translatedByVector p origin offset)
  | translatedBySegment origin start finish =>
    .ok (Score.translatedBySegment p origin start finish)
  | atMiddleOf points => Score.atMiddleOf p points
  | alignedWith a b => Score.alignedWith p a b

end Constraint

/-- The rule that scores what is demanded. -/
def Demand.rule (d : Demand α) : Rule α := fun p places => do
  let c ← d p places
  c.score p

end

variable {α : Type} [FieldScalar α]

/-- A position that meets a constraint exactly. -/
def Constraint.Met (p : Vec α) : Constraint α → Prop
  | atPosition x y => p = ⟨x, y⟩
  | onCircle center radius =>
    0 ≤ radius ∧ (p.x - center.x) ^ 2 + (p.y - center.y) ^ 2 = radius ^ 2
  | atDistanceEqual a b => a = b
  | atAngle angle a vertex c => Vec.signedAngle a vertex c = angle
  | translatedByVector origin offset => p = ⟨origin.x + offset.x, origin.y + offset.y⟩
  | translatedBySegment origin start finish =>
    p = ⟨origin.x + (finish.x - start.x), origin.y + (finish.y - start.y)⟩
  | atMiddleOf points => ∀ q ∈ points, q = p
  | alignedWith a b => (b.x - a.x) * (p.y - a.y) - (b.y - a.y) * (p.x - a.x) = 0

/-! ## Directions -/

namespace Vec

lemma normalize_eq_ok_iff {v w : Vec α} :
    normalize v = .ok w ↔ shortest < norm v ∧ w = ⟨v.x / norm v, v.y / norm v⟩ := by
  unfold normalize
  dsimp only
  split_ifs with h
  · exact ⟨nofun, fun hlong => absurd h (not_le.2 hlong.1)⟩
  · exact ⟨fun hw => ⟨not_le.1 h, (Except.ok.inj hw).symm⟩, fun hw => congrArg _ hw.2.symm⟩

/-- Nothing is wrong with a direction but that there may be none. -/
lemma exists_normalize_error_iff {v : Vec α} :
    (∃ f, normalize v = .error f) ↔ norm v ≤ shortest := by
  unfold normalize
  dsimp only
  split_ifs with h
  · exact ⟨fun _ => h, fun _ => ⟨_, rfl⟩⟩
  · exact ⟨nofun, fun hle => absurd hle h⟩

/-- An angle is measured unless one of its rays has no direction, and what is measured is the signed
angle of the rays. -/
lemma angleAt_eq_ok_iff [RootScalar α] {a vertex c : Vec α} {θ : α} :
    angleAt a vertex c = .ok θ ↔ shortest < distance vertex a ∧ shortest < distance vertex c ∧
      θ = signedAngle a vertex c := by
  have hangle : ∀ {u v : Vec α}, shortest < norm u → shortest < norm v →
      Scalar.atan2 (cross ⟨u.x / norm u, u.y / norm u⟩ ⟨v.x / norm v, v.y / norm v⟩)
          (dot ⟨u.x / norm u, u.y / norm u⟩ ⟨v.x / norm v, v.y / norm v⟩) =
        Scalar.atan2 (cross u v / (norm u * norm v)) (dot u v / (norm u * norm v)) := by
    intro u v hu hv
    have hune : norm u ≠ 0 := (shortest_pos.trans hu).ne'
    have hvne : norm v ≠ 0 := (shortest_pos.trans hv).ne'
    unfold cross dot
    congr 1
    · field_simp
    · field_simp
  unfold angleAt angleBetween
  rw [bind_eq_ok]
  constructor
  · rintro ⟨u, hu, hrest⟩
    obtain ⟨v, hv, hθ⟩ := bind_eq_ok.1 hrest
    obtain ⟨hulong, rfl⟩ := normalize_eq_ok_iff.1 hu
    obtain ⟨hvlong, rfl⟩ := normalize_eq_ok_iff.1 hv
    exact ⟨hulong, hvlong, (Except.ok.inj hθ).symm.trans (hangle hulong hvlong)⟩
  · rintro ⟨hulong, hvlong, rfl⟩
    refine ⟨_, normalize_eq_ok_iff.2 ⟨hulong, rfl⟩,
      bind_eq_ok.2 ⟨_, normalize_eq_ok_iff.2 ⟨hvlong, rfl⟩, ?_⟩⟩
    exact congrArg _ (hangle hulong hvlong)

end Vec

/-! ## One constraint -/

/-- An error scored by its negation: no score is positive, and there is none only where it is
zero. -/
lemma score_of_error {e : α} {met : Prop} (hnonneg : 0 ≤ e) (hzero : e = 0 ↔ met) :
    -e ≤ 0 ∧ (-e = 0 ↔ met) :=
  ⟨neg_nonpos.2 hnonneg, neg_eq_zero.trans hzero⟩

namespace Score

lemma equal_spec (a b : α) : equal a b ≤ 0 ∧ (equal a b = 0 ↔ a = b) := by
  unfold equal lowestAbs lowest
  rw [FieldScalar.abs_eq]
  exact score_of_error (abs_nonneg _) (abs_eq_zero.trans sub_eq_zero)

lemma alignedWith_exists_error_iff [RootScalar α] {p a b : Vec α} :
    (∃ f, alignedWith p a b = .error f) ↔
      (b.x - a.x) ^ 2 + (b.y - a.y) ^ 2 ≤ (1 / 10 ^ 12) ^ 2 := by
  have hdirection : (∃ f, alignedWith p a b = .error f) ↔
      ∃ f, Vec.normalize (Vec.between a b) = .error f := by
    unfold alignedWith
    cases Vec.normalize (Vec.between a b) with
    | error f => exact ⟨fun _ => ⟨f, rfl⟩, fun _ => ⟨f, rfl⟩⟩
    | ok w => exact ⟨nofun, nofun⟩
  rw [hdirection, Vec.exists_normalize_error_iff]
  show Vec.distance a b ≤ Vec.shortest ↔ _
  rw [Vec.distance_le_iff Vec.shortest_pos.le, Vec.shortest_eq, sub_sq_comm a.x, sub_sq_comm a.y]

/-- The perpendicular distance is the product of the two displacements, divided by the length of the
first. -/
lemma alignedWith_spec {p a b : Vec α} {s : α} (h : alignedWith p a b = .ok s) :
    s ≤ 0 ∧ (s = 0 ↔ (b.x - a.x) * (p.y - a.y) - (b.y - a.y) * (p.x - a.x) = 0) := by
  obtain ⟨w, hw, heq⟩ := bind_eq_ok.1 h
  cases heq
  obtain ⟨hlong, rfl⟩ := Vec.normalize_eq_ok_iff.1 hw
  have hne : Vec.norm (Vec.between a b) ≠ 0 := (Vec.shortest_pos.trans hlong).ne'
  unfold lowestAbs lowest
  rw [FieldScalar.abs_eq]
  refine score_of_error (abs_nonneg _) (abs_eq_zero.trans ?_)
  have hcross : Vec.cross ⟨(Vec.between a b).x / Vec.norm (Vec.between a b),
        (Vec.between a b).y / Vec.norm (Vec.between a b)⟩ (Vec.between a p) =
      ((b.x - a.x) * (p.y - a.y) - (b.y - a.y) * (p.x - a.x)) / Vec.norm (Vec.between a b) := by
    show (b.x - a.x) / _ * (p.y - a.y) - (b.y - a.y) / _ * (p.x - a.x) = _
    ring
  rw [hcross, div_eq_zero_iff, or_iff_left hne]

variable [RootScalar α]

lemma distance_spec (a b : Vec α) : -Vec.distance a b ≤ 0 ∧ (-Vec.distance a b = 0 ↔ a = b) :=
  score_of_error (Vec.distance_nonneg a b) Vec.distance_eq_zero_iff

/-- The largest of some distances is zero only if all of them are. -/
lemma foldl_larger_spec (p : Vec α) (qs : List (Vec α)) {d : α} (hd : 0 ≤ d) :
    let farthest := qs.foldl (fun d q => Scalar.larger d (Vec.distance p q)) d
    0 ≤ farthest ∧ (farthest = 0 ↔ d = 0 ∧ ∀ q ∈ qs, q = p) := by
  induction qs generalizing d with
  | nil => simpa using hd
  | cons q qs ih =>
    have hq := Vec.distance_nonneg p q
    have hlarger : Scalar.larger d (Vec.distance p q) = 0 ↔ d = 0 ∧ q = p := by
      rw [Scalar.larger_eq_max, eq_comm (a := q), ← Vec.distance_eq_zero_iff]
      constructor
      · intro hmax
        exact ⟨le_antisymm (hmax ▸ le_max_left _ _) hd, le_antisymm (hmax ▸ le_max_right _ _) hq⟩
      · rintro ⟨hd0, hq0⟩
        rw [hd0, hq0, max_self]
    have hnonneg : 0 ≤ Scalar.larger d (Vec.distance p q) := by
      rw [Scalar.larger_eq_max]
      exact le_max_of_le_left hd
    obtain ⟨hfar, hzero⟩ := ih hnonneg
    refine ⟨hfar, ?_⟩
    rw [List.foldl_cons, hzero, hlarger, List.forall_mem_cons, and_assoc]

lemma atMiddleOf_spec {p : Vec α} {points : List (Vec α)} {s : α}
    (h : atMiddleOf p points = .ok s) : s ≤ 0 ∧ (s = 0 ↔ ∀ q ∈ points, q = p) := by
  cases points with
  | nil => cases h
  | cons q qs =>
    cases h
    obtain ⟨hfar, hzero⟩ := foldl_larger_spec p qs (Vec.distance_nonneg p q)
    refine score_of_error hfar ?_
    rw [hzero, Vec.distance_eq_zero_iff, List.forall_mem_cons, eq_comm (a := p)]

lemma atAngle_spec {angle s : α} {a vertex c : Vec α} (h : atAngle angle a vertex c = .ok s) :
    s ≤ 0 ∧ (s = 0 ↔ Vec.signedAngle a vertex c = angle) := by
  obtain ⟨measured, hmeasured, heq⟩ := bind_eq_ok.1 h
  cases heq
  obtain ⟨-, -, rfl⟩ := Vec.angleAt_eq_ok_iff.1 hmeasured
  exact equal_spec _ angle

end Score

/-- A constraint scores zero where it is met, and less elsewhere. -/
lemma Constraint.score_spec [RootScalar α] {p : Vec α} {c : Constraint α} {s : α}
    (h : c.score p = .ok s) : s ≤ 0 ∧ (s = 0 ↔ c.Met p) := by
  cases c with
  | atPosition x y =>
    cases h
    exact Score.distance_spec p ⟨x, y⟩
  | onCircle center radius =>
    cases h
    show Score.equal _ _ ≤ 0 ∧ (Score.equal _ _ = 0 ↔ _ ∧ _)
    rw [← Vec.distance_eq_iff, eq_comm (b := radius)]
    exact Score.equal_spec radius _
  | atDistanceEqual a b =>
    cases h
    exact Score.equal_spec a b
  | atAngle angle a vertex c => exact Score.atAngle_spec h
  | translatedByVector origin offset =>
    cases h
    exact Score.distance_spec p (Vec.add origin offset)
  | translatedBySegment origin start finish =>
    cases h
    exact Score.distance_spec p (Vec.add origin (Vec.between start finish))
  | atMiddleOf points => exact Score.atMiddleOf_spec h
  | alignedWith a b => exact Score.alignedWith_spec h

/-! ## Sums of scores -/

namespace Rule

variable {rules : List (Rule α)} {p : Vec α} {places : Places α} {s : α}

lemma combine_eq_ok_iff :
    combine rules p places = .ok s ↔ rules ≠ [] ∧
      ∃ scores, List.Forall₂ (fun rule x => rule p places = .ok x) rules scores ∧
        s = scores.sum := by
  unfold combine
  rw [bind_eq_ok]
  simp only [mapM_eq_ok_iff]
  constructor
  · rintro ⟨scores, hscores, hs⟩
    cases hscores with
    | nil => cases hs
    | cons hx hxs =>
      refine ⟨List.cons_ne_nil _ _, _, .cons hx hxs, ?_⟩
      rw [← Scalar.total_eq_sum]
      exact (Except.ok.inj hs).symm
  · rintro ⟨hne, scores, hscores, rfl⟩
    refine ⟨scores, hscores, ?_⟩
    rw [← Scalar.total_eq_sum]
    cases hscores with
    | nil => exact absurd rfl hne
    | cons _ _ => rfl

/-- A combined rule fails exactly if there is nothing to combine or one of its rules fails. -/
lemma exists_combine_error_iff :
    (∃ f, combine rules p places = .error f) ↔
      rules = [] ∨ ∃ rule ∈ rules, ∃ f, rule p places = .error f := by
  have hok : (∃ s, combine rules p places = .ok s) ↔
      rules ≠ [] ∧ ∀ rule ∈ rules, ∃ x, rule p places = .ok x := by
    rw [← exists_mapM_iff]
    simp only [combine_eq_ok_iff, mapM_eq_ok_iff]
    exact ⟨fun ⟨_, hne, scores, hscores, _⟩ => ⟨hne, scores, hscores⟩,
      fun ⟨hne, scores, hscores⟩ => ⟨_, hne, scores, hscores, rfl⟩⟩
  simp only [exists_error_iff, hok, not_and_or, not_ne_iff, not_forall, exists_prop]

end Rule

/-- Scores that are not positive do not cancel: their sum is zero only if each of them is. -/
lemma sum_of_demands [RootScalar α] {p : Vec α} {places : Places α} {demands : List (Demand α)}
    {scores : List α}
    (h : List.Forall₂ (fun d x => Demand.rule d p places = .ok x) demands scores) :
    scores.sum ≤ 0 ∧
      (scores.sum = 0 ↔ ∀ d ∈ demands, ∃ c, d p places = .ok c ∧ c.Met p) := by
  induction h with
  | nil => simp
  | @cons d x demands scores hx _ ih =>
    obtain ⟨c, hc, hscore⟩ := bind_eq_ok.1 hx
    obtain ⟨hxle, hxzero⟩ := Constraint.score_spec hscore
    obtain ⟨hsum, hsumzero⟩ := ih
    have hmet : (∃ c, d p places = .ok c ∧ c.Met p) ↔ c.Met p := by
      simp [hc]
    rw [List.sum_cons, List.forall_mem_cons, hmet, ← hxzero, ← hsumzero]
    refine ⟨add_nonpos hxle hsum, fun hzero => ?_, fun ⟨h₁, h₂⟩ => by rw [h₁, h₂, add_zero]⟩
    constructor <;> linarith

/-- Of constraints that are combined: the score is never positive, and it is zero exactly where
every single constraint is met. There is no score exactly if there are no constraints or one of them
has none. Alignment has none exactly if the two points of its line are hardly apart. -/
theorem combined_constraints [RootScalar α] (demands : List (Demand α)) (p : Vec α)
    (places : Places α) :
    (∀ s, Rule.combine (demands.map Demand.rule) p places = .ok s →
      s ≤ 0 ∧ (s = 0 ↔ ∀ d ∈ demands, ∃ c, d p places = .ok c ∧ c.Met p)) ∧
    (∀ rules : List (Rule α), (∃ f, Rule.combine rules p places = .error f) ↔
      rules = [] ∨ ∃ rule ∈ rules, ∃ f, rule p places = .error f) ∧
    ∀ a b : Vec α, (∃ f, Score.alignedWith p a b = .error f) ↔
      (b.x - a.x) ^ 2 + (b.y - a.y) ^ 2 ≤ (1 / 10 ^ 12) ^ 2 := by
  refine ⟨fun s hs => ?_, fun rules => Rule.exists_combine_error_iff,
    fun a b => Score.alignedWith_exists_error_iff⟩
  obtain ⟨-, scores, hscores, rfl⟩ := Rule.combine_eq_ok_iff.1 hs
  exact sum_of_demands (List.forall₂_map_left_iff.1 hscores)

/-! ## On the plane of the real numbers -/

/-- Among the real numbers the signed angle is the argument of the quotient of the rays, taken as
complex numbers: counter-clockwise, and at most half a turn. -/
lemma Vec.signedAngle_real {a vertex c : Vec ℝ} (ha : a ≠ vertex) (hc : c ≠ vertex) :
    signedAngle a vertex c = Complex.arg
      ((⟨c.x - vertex.x, c.y - vertex.y⟩ : ℂ) / ⟨a.x - vertex.x, a.y - vertex.y⟩) := by
  have hlength : ∀ {b : Vec ℝ}, b ≠ vertex → 0 < norm (between vertex b) := fun hb =>
    (distance_nonneg vertex _).lt_of_ne fun h => hb (distance_eq_zero_iff.1 h.symm).symm
  have hu := hlength ha
  have hv := hlength hc
  have hsq : Complex.normSq ⟨a.x - vertex.x, a.y - vertex.y⟩ = norm (between vertex a) ^ 2 := by
    rw [norm_sq, Complex.normSq_mk]
    rfl
  -- the cosine and the sine are the parts of the quotient, stretched by the ratio of the lengths
  rw [← Complex.arg_real_mul _ (div_pos hu hv)]
  show Complex.arg ⟨_, _⟩ = _
  congr 1
  apply Complex.ext
  · rw [Complex.re_ofReal_mul, Complex.div_re, hsq]
    unfold dot
    field_simp
    show (a.x - vertex.x) * (c.x - vertex.x) + (a.y - vertex.y) * (c.y - vertex.y) = _
    ring
  · rw [Complex.im_ofReal_mul, Complex.div_im, hsq]
    unfold cross
    field_simp
    show (a.x - vertex.x) * (c.y - vertex.y) - (a.y - vertex.y) * (c.x - vertex.x) = _
    ring

/-- Constraints on a circle around `O`, on the line from there to `(6, 8)`, and at a right angle to
the ray through `(4, -3)`. -/
noncomputable def cornerDemands : List (Demand ℝ) :=
  [fun _ places => do
      let center ← places "O"
      return .onCircle center 5,
    fun _ places => do
      let a ← places "O"
      return .alignedWith a ⟨6, 8⟩,
    fun p places => do
      let vertex ← places "O"
      return .atAngle (Real.pi / 2) ⟨4, -3⟩ vertex p]

/-- The combined rule has a score at every position that is not the corner itself. -/
lemma exists_combine_cornerDemands {p : Vec ℝ} (hp : Vec.shortest < Vec.distance ⟨0, 0⟩ p) :
    ∃ s, Rule.combine (cornerDemands.map Demand.rule) p (fun _ => .ok ⟨0, 0⟩) = .ok s := by
  by_contra hnone
  obtain hnil | ⟨rule, hmem, f, hf⟩ := Rule.exists_combine_error_iff.1 (exists_error_iff.2 hnone)
  · cases hnil
  · simp only [cornerDemands, List.map_cons, List.map_nil, List.mem_cons, List.not_mem_nil,
      or_false] at hmem
    rcases hmem with rfl | rfl | rfl
    · cases hf
    · have hshort := Score.alignedWith_exists_error_iff.1 ⟨f, hf⟩
      norm_num at hshort
    · have hlong : Vec.shortest < Vec.distance (⟨0, 0⟩ : Vec ℝ) ⟨4, -3⟩ := by
        rw [← not_le, Vec.distance_le_iff Vec.shortest_pos.le, Vec.shortest_eq]
        norm_num
      have hangle := Vec.angleAt_eq_ok_iff.2 ⟨hlong, hp, rfl⟩
      have hscore : Score.atAngle (Real.pi / 2) ⟨4, -3⟩ ⟨0, 0⟩ p = .ok _ :=
        bind_eq_ok.2 ⟨_, hangle, rfl⟩
      exact absurd (hf.symm.trans hscore) nofun

/-- At `(3, 4)` all three constraints are met, and the score is zero. At `(5, 0)` only the first of
them is met, and the score is less. -/
theorem combined_constraints_corner :
    (∃ s, Rule.combine (cornerDemands.map Demand.rule) ⟨3, 4⟩ (fun _ => .ok ⟨0, 0⟩) = .ok s ∧
      s = 0) ∧
    ∃ s, Rule.combine (cornerDemands.map Demand.rule) ⟨5, 0⟩ (fun _ => .ok ⟨0, 0⟩) = .ok s ∧
      s < 0 := by
  have hfar : ∀ {x y : ℝ}, 1 ≤ x ^ 2 + y ^ 2 → Vec.shortest < Vec.distance ⟨0, 0⟩ ⟨x, y⟩ := by
    intro x y h
    rw [← not_le, Vec.distance_le_iff Vec.shortest_pos.le, Vec.shortest_eq]
    norm_num
    linarith
  constructor
  · obtain ⟨s, hs⟩ := exists_combine_cornerDemands (p := ⟨3, 4⟩) (hfar (by norm_num))
    refine ⟨s, hs, ((combined_constraints cornerDemands _ _).1 s hs).2.2 ?_⟩
    have hangle : Vec.signedAngle ⟨4, -3⟩ ⟨0, 0⟩ (⟨3, 4⟩ : Vec ℝ) = Real.pi / 2 := by
      have hquotient : (⟨3, 4⟩ : ℂ) / ⟨4, -3⟩ = Complex.I := by
        rw [div_eq_iff (by simp [Complex.ext_iff])]
        apply Complex.ext
        · norm_num
        · norm_num
      rw [Vec.signedAngle_real (by simp) (by simp)]
      norm_num [hquotient]
    simp only [cornerDemands, List.forall_mem_cons, List.not_mem_nil, false_implies, implies_true,
      and_true]
    refine ⟨⟨_, rfl, ?_⟩, ⟨_, rfl, ?_⟩, ⟨_, rfl, hangle⟩⟩
    · norm_num [Constraint.Met]
    · norm_num [Constraint.Met]
  · obtain ⟨s, hs⟩ := exists_combine_cornerDemands (p := ⟨5, 0⟩) (hfar (by norm_num))
    obtain ⟨hle, hzero⟩ := (combined_constraints cornerDemands _ _).1 s hs
    refine ⟨s, hs, hle.lt_of_ne fun h => ?_⟩
    -- the second constraint is not met there
    obtain ⟨c, hc, hmet⟩ := hzero.1 h _ (.tail _ (.head _))
    cases hc
    norm_num [Constraint.Met] at hmet

end PointRelaxation
