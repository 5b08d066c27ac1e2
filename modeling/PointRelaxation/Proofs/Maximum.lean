import PointRelaxation.Proofs.Exact
import PointRelaxation.Proofs.Pass

/-!
# Evaluated points stand on a maximum of their clouds

A visit either finds its point on a greatest score or moves it there, and nothing that happens
between visits changes the score or the candidates of a point. So the invariant holds of every scene
that registrations, completed passes and invalidations lead to, whatever the options and the draws
of each pass.

* `Reached`: those scenes, each with the names of the points that were evaluated on the way.
* `Point.OnMaximum`: the invariant of an evaluated point.
* `evaluated_on_maximum`: it holds of every evaluated point of every reached scene.
-/

namespace PointRelaxation

variable {α : Type} [Scalar α]

/-- The scenes that come about by registrations, completed passes and invalidations, and the names
of the points that the passes evaluated. Each pass may belong to another relaxation. -/
inductive Reached : Scene α → List String → Prop
  | empty (decimals : ℕ) : Reached (.empty decimals) []
  | register {scene scene' : Scene α} {evaluated : List String} {name : Option String}
      {rule : Option (Rule α)} {position : Vec α} {p : Point α} :
      Reached scene evaluated → scene.register name rule position = .ok (p, scene') →
      Reached scene' evaluated
  | pass {scene : Scene α} {evaluated : List String} {σ : Type} [Draws σ α]
      (r : Relaxation α σ) {report : PassReport} :
      Reached scene evaluated → (r.pass scene).report = .ok report →
      Reached (r.pass scene).scene (evaluated ++ report.evaluated)
  | invalidate {scene : Scene α} {evaluated : List String} :
      Reached scene evaluated → Reached scene.invalidate evaluated

/-- A point whose candidates all have a number for a score, the greatest of which is the score of
the point. A stable point stands in a cell of that score; any other was moved to the position that
stands for such a cell. -/
structure Point.OnMaximum (decimals : ℕ) (p : Point α) : Prop where
  scored : ∀ e ∈ p.candidates.entries,
    ∃ s, e.2 = some s ∧ ¬ Scalar.IsUndefined s ∧ s ≤ p.score
  attained : ∃ c, p.candidates.score? c = some p.score ∧
    (Grid.RoundTrips α decimals c → p.cell decimals = .ok c)
  stays : p.stable → ∃ c, p.cell decimals = .ok c ∧ p.candidates.score? c = some p.score

/-! ## What keeps the invariant -/

/-- A completed visit leaves its point on a maximum. -/
lemma Outcome.onMaximum [OrderedScalar α] {decimals : ℕ} {places : Places α} {p q : Point α}
    {moved : Bool} (h : Outcome decimals places p q moved) : q.OnMaximum decimals := by
  refine ⟨?_, ?_, fun hq => (h.stays hq).2.2⟩
  · intro e he
    obtain ⟨v, hv, hscore⟩ := h.scored e he
    obtain ⟨s, hs, hle⟩ := h.greatest e he
    obtain rfl : v.score = s := Option.some.inj (hscore.symm.trans hs)
    exact ⟨v.score, hscore, not_not.2 (Verdict.score_le_score hv), hle⟩
  · cases hq : q.stable with
    | true =>
      obtain ⟨c, hcell, hscore⟩ := (h.stays hq).2.2
      exact ⟨c, hscore, fun _ => hcell⟩
    | false =>
      obtain ⟨c, hplace, hscore⟩ := (h.moves hq).2
      exact ⟨c, hscore, fun hround => hround _ hplace⟩

/-- Marking a point unstable leaves it where it is. -/
lemma Point.OnMaximum.unsettle {decimals : ℕ} {p : Point α} (h : p.OnMaximum decimals) :
    { p with stable := false }.OnMaximum decimals :=
  ⟨h.scored, h.attained, fun hq => absurd hq Bool.false_ne_true⟩

/-- Behind a completed pass a point is as it was and was not evaluated, or it is on a maximum. -/
lemma onMaximum_pass [OrderedScalar α] {σ : Type} [Draws σ α] {r : Relaxation α σ}
    {scene : Scene α} {report : PassReport} (hr : (r.pass scene).report = .ok report)
    {q : Point α} (hq : q ∈ (r.pass scene).scene.points) :
    q.OnMaximum scene.decimals ∨ (q ∈ scene.points ∧ q.name ∉ report.evaluated) := by
  by_cases h : scene.allStable
  · rw [Relaxation.pass_idle h] at hr hq
    obtain rfl := Except.ok.inj hr
    exact .inr ⟨hq, List.not_mem_nil⟩
  · rcases (Relaxation.mem_points_pass h hr).1 hq with ⟨v, hv, rfl⟩ | hold
    · have hf := (Relaxation.pass_eq_ok h hr).1
      obtain ⟨scene', p, s', -, rfl, hd⟩ := exists_of_mem_visits hv
      exact .inl (hd ▸ (Visit.outcome_make (fault?_of_mem_visits hf hv)).onMaximum)
    · exact .inr hold

namespace Reached

/-- Only points of the scene are evaluated. -/
lemma evaluated_subset {scene : Scene α} {evaluated : List String} (h : Reached scene evaluated) :
    ∀ name ∈ evaluated, name ∈ scene.names := by
  induction h with
  | empty decimals => simp
  | register h hreg ih =>
    obtain ⟨-, hpoints, -⟩ := Scene.register_eq_ok hreg
    intro name hn
    rw [Scene.names, hpoints, List.map_append, List.mem_append]
    exact .inl (ih name hn)
  | pass r h hr ih =>
    intro name hn
    rw [Relaxation.names_pass]
    rcases List.mem_append.1 hn with hn | hn
    · exact ih name hn
    · exact Relaxation.evaluated_subset_names hr name hn
  | invalidate h ih =>
    intro name hn
    rw [Scene.names_invalidate]
    exact ih name hn

/-- Every evaluated point of a reached scene is on a maximum. -/
lemma onMaximum [OrderedScalar α] {scene : Scene α} {evaluated : List String}
    (h : Reached scene evaluated) :
    ∀ p ∈ scene.points, p.name ∈ evaluated → p.OnMaximum scene.decimals := by
  induction h with
  | empty decimals => simp
  | @register scene scene' evaluated name rule position p h hreg ih =>
    obtain ⟨hfree, hpoints, hdecimals⟩ := Scene.register_eq_ok hreg
    intro q hq hev
    rw [hpoints, List.mem_append, List.mem_singleton] at hq
    rw [hdecimals]
    rcases hq with hq | rfl
    · exact ih q hq hev
    · exact absurd (h.evaluated_subset q.name hev) hfree
  | @pass scene evaluated σ _ r report h hr ih =>
    intro q hq hev
    rw [Relaxation.decimals_pass]
    rcases onMaximum_pass hr hq with hmax | ⟨hold, hnew⟩
    · exact hmax
    · exact ih q hold ((List.mem_append.1 hev).resolve_right hnew)
  | @invalidate scene evaluated h ih =>
    intro q hq hev
    obtain ⟨p, hp, rfl⟩ := List.mem_map.1 hq
    exact (ih p hp hev).unsettle

end Reached

/-- Every point that was evaluated at least once has candidates, each of them scored by a number
that the score of the point is not below; the score is that of a candidate, which is the point's own
cell unless the place of that cell lies in another; and a stable point stands in a cell of its
score. -/
theorem evaluated_on_maximum [OrderedScalar α] {scene : Scene α} {evaluated : List String}
    (h : Reached scene evaluated) {p : Point α} (hp : p ∈ scene.points)
    (hev : p.name ∈ evaluated) :
    p.candidates.size ≠ 0 ∧
      (∀ e ∈ p.candidates.entries,
        ∃ s, e.2 = some s ∧ ¬ Scalar.IsUndefined s ∧ s ≤ p.score) ∧
      (∃ c, p.candidates.score? c = some p.score ∧
        (Grid.RoundTrips α scene.decimals c → p.cell scene.decimals = .ok c)) ∧
      (p.stable → ∃ c, p.cell scene.decimals = .ok c ∧
        p.candidates.score? c = some p.score) := by
  have hmax := h.onMaximum p hp hev
  refine ⟨?_, hmax.scored, hmax.attained, hmax.stays⟩
  obtain ⟨c, hc, -⟩ := hmax.attained
  rw [Candidates.score?_eq_some_iff] at hc
  exact List.length_eq_zero_iff.not.2 (List.ne_nil_of_mem hc)

/-- The pursuit is reached by two registrations. -/
lemma Reached.pursuit : Reached Exact.pursuit [] :=
  .register (.register (.empty 0) Exact.register_solitude) Exact.register_pursuit

/-- After the first pass of the pursuit, in which both points moved, each of them stands in a cell
of its score. -/
theorem evaluated_on_maximum_pursuit :
    Reached Exact.pursuitPass.scene ["A", "B"] ∧
      ∀ p ∈ Exact.pursuitPass.scene.points, p.name ∈ ["A", "B"] ∧ p.candidates.size ≠ 0 ∧
        ∃ c, p.candidates.score? c = some p.score ∧
          p.cell Exact.pursuitPass.scene.decimals = .ok c := by
  have hreached : Reached Exact.pursuitPass.scene ["A", "B"] :=
    Reached.pass (.start Exact.pursuitOptions Exact.pursuitDraws) Reached.pursuit
      Exact.report_pursuitPass
  refine ⟨hreached, fun p hp => ?_⟩
  have hname : p.name ∈ ["A", "B"] := by
    have hnames : Exact.pursuitPass.scene.names = ["A", "B"] := Relaxation.names_pass
    exact hnames ▸ Scene.mem_names_of_mem hp
  obtain ⟨hne, -, ⟨c, hc, hcell⟩, -⟩ := evaluated_on_maximum hreached hp hname
  exact ⟨hname, hne, c, hc, hcell (Grid.roundTrips_exact _ c)⟩

end PointRelaxation
