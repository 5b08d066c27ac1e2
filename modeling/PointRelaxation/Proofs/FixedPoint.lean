import PointRelaxation.Proofs.Iteration

/-!
# Convergence to a joint fixed point

The points of a scene move one after the other, and a live view shows the moves at once. A pass that
leaves every point stable has nevertheless moved none, so the scores it took for one point still
hold when it has visited the last: all points are best against one and the same set of positions.

* `Point.AtRest`, `Scene.AtRest`: what that means for a point and for a scene.
* `joint_fixed_point`: passes and runs that end with every point stable leave a scene at rest.
-/

namespace PointRelaxation

variable {α : Type} [Scalar α]

/-- A point that no candidate improves while the points stand at `places`: each of its candidates is
scored by its rule there, its own cell is one of them, and it has the greatest score. -/
structure Point.AtRest (decimals : ℕ) (places : Places α) (p : Point α) : Prop where
  scored : ∀ e ∈ p.candidates.entries,
    ∃ v, Verdict.ofCell decimals p.rule places e.1 = .ok v ∧ e.2 = some v.score
  own : ∃ c, p.cell decimals = .ok c ∧ p.candidates.score? c = some p.score
  greatest : ∀ e ∈ p.candidates.entries, ∃ s, e.2 = some s ∧ s ≤ p.score

/-- Every point is at rest where the points of the scene stand. -/
def Scene.AtRest (scene : Scene α) : Prop :=
  ∀ p ∈ scene.points, p.AtRest scene.decimals scene.places

lemma Outcome.atRest {decimals : ℕ} {places : Places α} {p q : Point α} {moved : Bool}
    (h : Outcome decimals places p q moved) (hq : q.stable) : q.AtRest decimals places :=
  ⟨h.scored, (h.stays hq).2.2, h.greatest⟩

variable [OrderedScalar α] {σ : Type} [Draws σ α]

/-- A sweep over all points, in any order, that leaves each of them stable. -/
lemma atRest_sweep {options : Options α} {frozen : Bool} {scene : Scene α} {source : σ}
    {ps : List (Point α)} (hps : ps.Perm scene.points)
    (hf : (sweep (Visit.make options (View.make scene frozen)) ps scene source).fault = none)
    (hstable : (sweep (Visit.make options (View.make scene frozen)) ps scene
      source).scene.allStable) :
    (sweep (Visit.make options (View.make scene frozen)) ps scene source).scene.positions =
        scene.positions ∧
      (sweep (Visit.make options (View.make scene frozen)) ps scene source).scene.AtRest := by
  have hnd : (ps.map Point.name).Nodup := (hps.map Point.name).nodup_iff.2 scene.nodup
  have hsub : ∀ p ∈ ps, p ∈ scene.points := fun p hp => hps.mem_iff.1 hp
  have hnames : ∀ p ∈ ps, p.name ∈ scene.names := fun p hp => Scene.mem_names_of_mem (hsub p hp)
  have hwritten := fun q => mem_points_sweep (q := q)
    (Visit.point_name_make options (View.make scene frozen)) (s := source) hnd hnames
  rw [Scene.allStable_iff] at hstable
  have hvisits : ∀ v ∈ (sweep (Visit.make options (View.make scene frozen)) ps scene
      source).visits, v.point.stable :=
    fun v hv => hstable _ ((hwritten _).2 (.inl ⟨v, hv, rfl⟩))
  obtain ⟨hpos, hout⟩ := positions_sweep_of_stable hnd hsub hf hvisits
  refine ⟨hpos, fun q hq => ?_⟩
  rw [decimals_sweep, Scene.places_eq_of_positions hpos]
  rcases (hwritten q).1 hq with ⟨v, hv, rfl⟩ | ⟨hold, hne⟩
  · obtain ⟨p, -, hp⟩ := hout v hv
    rw [View.places_make] at hp
    exact hp.atRest (hvisits v hv)
  · -- every point was visited, so none of them is as it was before
    have hmem : q.name ∈ ps.map Point.name := List.mem_map_of_mem (hps.mem_iff.2 hold)
    rw [← map_name_visits (Visit.point_name_make options (View.make scene frozen)) hf] at hmem
    obtain ⟨v, hv, hname⟩ := List.mem_map.1 hmem
    exact absurd hname (hne v hv)

lemma atRest_pass {r : Relaxation α σ} (hskip : r.options.skipStable = false) {scene : Scene α}
    (h : ¬ scene.allStable) {report : PassReport} (hr : (r.pass scene).report = .ok report)
    (hstable : (r.pass scene).scene.allStable) :
    (r.pass scene).scene.positions = scene.positions ∧ (r.pass scene).scene.AtRest := by
  obtain ⟨hf, hscene, -⟩ := Relaxation.pass_eq_ok h hr
  rw [hscene] at hstable ⊢
  have hdue : scene.points.filter r.options.visits = scene.points := by
    simp [Options.visits, hskip]
  unfold Relaxation.sweepDue at hf hstable ⊢
  rw [hdue] at hf hstable ⊢
  exact atRest_sweep (List.Perm.refl _) hf hstable

/-- Passes over all points that leave every point stable leave a joint fixed point. This holds of a
sweep over the points in any order, of a pass, and of a run from the beginning that succeeds after
at least one pass: none of the points moved, and at the positions where they stand each of them has
the greatest score of its candidates. -/
theorem joint_fixed_point (r : Relaxation α σ) (hskip : r.options.skipStable = false)
    (scene : Scene α) :
    (∀ ps : List (Point α), ps.Perm scene.points →
      let s := sweep (Visit.make r.options (View.make scene r.options.snapshot)) ps scene r.source
      s.fault = none → s.scene.allStable →
        s.scene.positions = scene.positions ∧ s.scene.AtRest) ∧
    (∀ report, (r.pass scene).report = .ok report → report.idle = false →
      (r.pass scene).scene.allStable →
        (r.pass scene).scene.positions = scene.positions ∧ (r.pass scene).scene.AtRest) ∧
    (∀ (β : Type) (note : Pass α σ → List β),
      let run := Relaxation.solve note r.options r.source scene
      let solution := Solution.ofRun r.options.maxPasses run
      run.fault = none → solution.success → 0 < solution.passes →
        solution.positions = run.scene.positions ∧ run.scene.AtRest) := by
  refine ⟨fun ps hps hf hstable => atRest_sweep hps hf hstable, ?_, ?_⟩
  · intro report hr hidle hstable
    have h : ¬ scene.allStable := fun h => by
      rw [← Relaxation.idle_iff hr, hidle] at h
      exact absurd h (by decide)
    exact atRest_pass hskip h hr hstable
  · intro β note run solution hf hsuccess hpasses
    refine ⟨rfl, ?_⟩
    have hcount : solution.passes = run.count := (Relaxation.passes_run hf).trans (Nat.zero_add _)
    rcases Relaxation.exists_last_report hf with
      ⟨hzero, -, -⟩ | ⟨n, report, -, hunstable, hr, hlast, -⟩
    · have hnone : run.count = 0 := hzero
      omega
    · have hlast : run.scene = (Relaxation.passBehind n _ scene).scene := hlast
      have hstable : run.scene.allStable := hsuccess
      have hskip' : ((Relaxation.start r.options r.source).iterate n
          scene).relaxation.options.skipStable = false := by
        rw [Relaxation.options_iterate]
        exact hskip
      rw [hlast] at hstable ⊢
      exact (atRest_pass hskip' hunstable hr hstable).2

/-- The pursuit ends with both points at rest. -/
theorem joint_fixed_point_pursuit :
    (Relaxation.start Exact.pursuitOptions Exact.pursuitDraws).options.skipStable = false ∧
      Exact.pursuitRun.scene.AtRest := by
  obtain ⟨hf, hstable, hpasses⟩ := Exact.pursuitRun_spec
  have hpos : 0 < Exact.pursuitRun.relaxation.passes := hpasses ▸ Nat.zero_lt_two
  have h := joint_fixed_point (.start Exact.pursuitOptions Exact.pursuitDraws) rfl Exact.pursuit
  exact ⟨rfl, (h.2.2 Unit (fun _ => []) hf hstable hpos).2⟩

end PointRelaxation
