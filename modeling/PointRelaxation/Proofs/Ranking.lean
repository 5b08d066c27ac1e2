import PointRelaxation.Relaxation.Solution
import PointRelaxation.Proofs.Binary64Sums

/-!
# The rank of a solution

Of two solutions over the same points the one with fewer unstable points ranks first, and if they
have equally many, the one with the larger sum of finite scores. A score that is not finite is left
out of the sum, as if it were zero. A solution that is at least as good in every point therefore
never ranks behind the other one, unless leaving scores out turns the comparison of a point around.

* `Solution.rank_le_rank`: the solution that is at least as good never ranks behind.
* `Solution.rank_missing_score`: it may if the worst score there is counts as zero.
-/

namespace PointRelaxation

namespace Solution

variable {α : Type} [Scalar α]

/-- The number of unstable points. -/
def unstable (s : Solution α) : ℕ := (s.stable.filter fun e => !e.2).length

/-- A solution that is at least as good as another one over the same points. -/
structure AsGoodAs (s t : Solution α) : Prop where
  unstable : s.unstable ≤ t.unstable
  scores : List.Forall₂ (fun e f => e.1 = f.1 ∧ f.2 ≤ e.2) s.scores t.scores

/-- A score that adds no less to a sum of finite scores than another one: what is not finite adds
nothing. -/
structure AddsNoLess (x y : α) : Prop where
  of_left : Scalar.IsFinite x → ¬ Scalar.IsFinite y → 0.0 ≤ x
  of_right : Scalar.IsFinite y → ¬ Scalar.IsFinite x → y ≤ 0.0

/-- A sum with a score added if it is finite. -/
def addFinite (sum x : α) : α := if Scalar.IsFinite x then sum + x else sum

/-- The sum of the finite scores is taken score by score. -/
lemma total_finite (es : List (String × α)) :
    Scalar.total ((es.map Prod.snd).filter fun x => Scalar.IsFinite x) =
      es.foldl (fun sum e => addFinite sum e.2) 0.0 := by
  unfold Scalar.total addFinite
  rw [List.foldl_filter, List.foldl_map]
  simp only [decide_eq_true_eq]

variable [MonotoneScalar α]

/-- A score that is at least another one and adds no less keeps a sum that is at least another
one. -/
lemma addFinite_le {a b x y : α} (hsum : b ≤ a) (hxy : y ≤ x) (h : AddsNoLess x y) :
    addFinite b y ≤ addFinite a x := by
  obtain ⟨hb, ha⟩ := MonotoneScalar.number_of_le hsum
  have hzero : Scalar.IsFinite (0.0 : α) := MonotoneScalar.isFinite_zero
  unfold addFinite
  by_cases hx : Scalar.IsFinite x
  · by_cases hy : Scalar.IsFinite y
    · rw [if_pos hx, if_pos hy]
      exact MonotoneScalar.add_le_add hsum hxy hy hx
    · rw [if_pos hx, if_neg hy]
      exact OrderedScalar.le_trans _ _ _ (MonotoneScalar.add_zero hb).1
        (MonotoneScalar.add_le_add hsum (h.of_left hx hy) hzero hx)
  · by_cases hy : Scalar.IsFinite y
    · rw [if_neg hx, if_pos hy]
      exact OrderedScalar.le_trans _ _ _
        (MonotoneScalar.add_le_add hsum (h.of_right hy hx) hy hzero) (MonotoneScalar.add_zero ha).2
    · rw [if_neg hx, if_neg hy]
      exact hsum

/-- Over all points the sums compare as the scores do. -/
lemma foldl_addFinite_le {es fs : List (String × α)}
    (hle : List.Forall₂ (fun e f => e.1 = f.1 ∧ f.2 ≤ e.2) es fs)
    (hadds : List.Forall₂ (fun e f => AddsNoLess e.2 f.2) es fs) {a b : α} (hsum : b ≤ a) :
    fs.foldl (fun sum e => addFinite sum e.2) b ≤ es.foldl (fun sum e => addFinite sum e.2) a := by
  induction hle generalizing a b with
  | nil => exact hsum
  | cons hhead _ ih =>
    obtain - | ⟨hadd, hrest⟩ := hadds
    exact ih hrest (addFinite_le hsum hhead.2 hadd)

/-- A solution that is at least as good as another one does not rank behind it. Where both have
equally many unstable points, no score may be left out for which another one would lose. -/
theorem rank_le_rank (s t : Solution α) (h : s.AsGoodAs t)
    (hadds : s.unstable = t.unstable →
      List.Forall₂ (fun e f => AddsNoLess e.2 f.2) s.scores t.scores) :
    toLex s.rank ≤ toLex t.rank := by
  rw [Prod.Lex.le_iff]
  rcases h.unstable.lt_or_eq with hlt | heq
  · exact .inl hlt
  · refine .inr ⟨heq, ?_⟩
    have hsums := foldl_addFinite_le h.scores (hadds heq) MonotoneScalar.zero_le_zero
    rw [← total_finite, ← total_finite] at hsums
    exact MonotoneScalar.neg_le_neg hsums

/-- What a scene has come to in which all points stand at the origin and are stable. -/
def settled (scores : List (String × α)) : Solution α :=
  { positions := scores.map fun e => (e.1, ⟨0.0, 0.0⟩)
    scores
    stable := scores.map fun e => (e.1, true)
    success := true
    passes := 1
    warnings := [] }

/-- A point that has a score at last, beside one that has none. -/
theorem rank_found_score :
    (settled [("A", (0.5 : Float)), ("B", Scalar.lowest)]).AsGoodAs
      (settled [("A", Scalar.lowest), ("B", Scalar.lowest)]) ∧
    toLex (settled [("A", (0.5 : Float)), ("B", Scalar.lowest)]).rank ≤
      toLex (settled [("A", (Scalar.lowest : Float)), ("B", Scalar.lowest)]).rank := by
  have hgood : (settled [("A", (0.5 : Float)), ("B", Scalar.lowest)]).AsGoodAs
      (settled [("A", Scalar.lowest), ("B", Scalar.lowest)]) :=
    ⟨le_rfl, .cons ⟨rfl, by decide +kernel⟩ (.cons ⟨rfl, by decide +kernel⟩ .nil)⟩
  have hinfinite : ¬ Scalar.IsFinite (Scalar.lowest : Float) := by decide +kernel
  refine ⟨hgood, rank_le_rank _ _ hgood fun _ => .cons ⟨fun _ _ => ?_, ?_⟩ (.cons ⟨?_, ?_⟩ .nil)⟩
  · decide +kernel
  · exact fun h => absurd h hinfinite
  · exact fun h => absurd h hinfinite
  · exact fun h => absurd h hinfinite

/-- A score that is left out counts as zero, which is more than a point falls short by. -/
theorem rank_missing_score :
    (¬ ∀ s t : Solution Float, s.AsGoodAs t → toLex s.rank ≤ toLex t.rank) ∧
    (settled [("A", (-1.0 : Float))]).rank.1 = 0 ∧
    Scalar.Same (settled [("A", (-1.0 : Float))]).rank.2 1.0 ∧
    (settled [("A", (Scalar.lowest : Float))]).rank.1 = 0 ∧
    Scalar.Same (settled [("A", (Scalar.lowest : Float))]).rank.2 0.0 := by
  refine ⟨fun hrank => ?_, rfl, by decide +kernel, rfl, by decide +kernel⟩
  have hgood : (settled [("A", (-1.0 : Float))]).AsGoodAs (settled [("A", Scalar.lowest)]) :=
    ⟨le_rfl, .cons ⟨rfl, by decide +kernel⟩ .nil⟩
  have hle := hrank _ _ hgood
  rw [Prod.Lex.le_iff] at hle
  rcases hle with hlt | ⟨-, hle⟩
  · exact lt_irrefl 0 hlt
  · exact absurd hle (by decide +kernel)

end Solution
end PointRelaxation
