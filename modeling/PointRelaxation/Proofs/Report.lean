import PointRelaxation.Proofs.Evaluation
import PointRelaxation.Proofs.Exact
import PointRelaxation.Proofs.Pass

/-!
# Reports and the scenes they speak of

A report is written visit by visit, while the pass goes on. What it says is true of the scene that
the pass leaves, also of the points that the pass did not visit.

* `Relaxation.unstable_eq`: the points that a report calls unstable are those that are.
* `Visit.degenerate_make`: a visited point counts the degenerate cells among its candidates.
* `report_agrees`: a report and the scene behind its pass.
-/

namespace PointRelaxation

variable {α σ : Type}

/-- Whether the point of a name is unstable. -/
def Scene.unstableAt (scene : Scene α) (name : String) : Bool :=
  (scene.find? name).any (!·.stable)

lemma Scene.unstableAt_of_find? {scene : Scene α} {name : String} {p : Point α}
    (h : scene.find? name = some p) : scene.unstableAt name = !p.stable := by
  unfold unstableAt
  rw [h]
  rfl

namespace Solution

/-- The unstable points by name, read off the registry. -/
lemma unstableNames_eq (scene : Scene α) :
    unstableNames scene = scene.names.filter scene.unstableAt := by
  unfold unstableNames Scene.names
  rw [List.filter_map]
  refine congrArg (List.map Point.name) (List.filter_congr fun p hp => ?_)
  exact (Scene.unstableAt_of_find? (Scene.find?_eq_some_iff.2 ⟨hp, rfl⟩)).symm

lemma unstableNames_eq_nil {scene : Scene α} : unstableNames scene = [] ↔ scene.allStable := by
  rw [Scene.allStable_iff]
  simp [unstableNames]

end Solution

variable [Scalar α]

/-- A completed visit moves its point exactly if it leaves it unstable. -/
lemma Outcome.moved_eq {decimals : ℕ} {places : Places α} {p q : Point α} {moved : Bool}
    (h : Outcome decimals places p q moved) : moved = !q.stable := by
  cases hq : q.stable with
  | false => exact (h.moves hq).1
  | true => exact (h.stays hq).1

variable [Draws σ α]

/-- A completed visit leaves its point with no more candidates than samples, and with a count of
those that are degenerate. -/
lemma Visit.degenerate_make {options : Options α} {view : View α} {scene : Scene α} {p : Point α}
    {s : σ} (h : (make options view scene p s).1.fault? = none) :
    let q := (make options view scene p s).1.point
    q.degenerate = (q.candidates.cells.countP
        (p.rule.degenerateAt scene.decimals (view.places scene)) : ℕ) ∧
      q.candidates.size ≤ options.samples := by
  rcases hseed : (Candidates.seed scene.decimals p.position options.samples options.radius s).1 with
    f | m
  · rw [make_of_seed_error hseed] at h
    exact absurd h (Option.some_ne_none f)
  · rw [make_of_seed_ok hseed] at h ⊢
    intro q
    have hcells : q.candidates.cells = m.cells := cells_ofCloud view scene p m
    obtain ⟨hfault, -⟩ := ofCloud_of_fault?_eq_none h
    obtain ⟨position, score, stable, hq, -⟩ := ofCloud_writes view scene p m
    constructor
    · rw [hcells, ← Candidates.degenerate_evaluate hfault]
      exact congrArg Point.degenerate hq
    · have hsize : q.candidates.size = m.size := by
        simpa [Candidates.cells, Candidates.size] using congrArg List.length hcells
      rw [hsize, ← Candidates.length_offsets options.samples options.radius s]
      exact Candidates.size_of_around hseed

namespace Relaxation

variable {r : Relaxation α σ} {scene : Scene α} {report : PassReport}

/-- A completed pass that does something evaluates all points, or those that were unstable if the
options say so. -/
lemma evaluated_eq_names (h : ¬ scene.allStable) (hr : (r.pass scene).report = .ok report) :
    report.evaluated =
      if r.options.skipStable then Solution.unstableNames scene else scene.names := by
  rw [evaluated_eq h hr]
  unfold Solution.unstableNames Scene.names
  split_ifs with hskip
  · refine congrArg (List.map Point.name) (List.filter_congr fun p _ => ?_)
    simp [Options.visits, hskip]
  · refine congrArg (List.map Point.name) (List.filter_eq_self.2 fun p _ => ?_)
    simp [Options.visits, hskip]

/-- A point that is not due is stable and stays as it is. -/
lemma find?_pass_of_not_due (h : ¬ scene.allStable) (hr : (r.pass scene).report = .ok report)
    {p : Point α} (hp : p ∈ scene.points) (hdue : ¬ r.options.visits p) :
    p.stable ∧ (r.pass scene).scene.find? p.name = some p := by
  have hstable : r.options.skipStable ∧ p.stable := by simpa [Options.visits] using hdue
  refine ⟨hstable.2, find?_pass_of_not_evaluated hr hp ?_⟩
  rw [evaluated_eq h hr, List.mem_map]
  rintro ⟨q, hq, hname⟩
  obtain ⟨hqmem, hqdue⟩ := List.mem_filter.1 hq
  exact hdue (Scene.eq_of_name_eq hqmem hp hname ▸ hqdue)

lemma nodup_evaluated (hr : (r.pass scene).report = .ok report) : report.evaluated.Nodup := by
  rcases report_cases hr with ⟨-, rfl⟩ | ⟨h, -⟩
  · exact List.nodup_nil
  · rw [evaluated_eq h hr]
    exact scene.nodup_names_filter _

/-- The points that a report calls unstable are those that the pass leaves so. -/
lemma unstable_eq (hr : (r.pass scene).report = .ok report) :
    report.unstable = Solution.unstableNames (r.pass scene).scene := by
  rcases report_cases hr with ⟨h, rfl⟩ | ⟨h, hreport⟩
  · rw [pass_idle h]
    exact (Solution.unstableNames_eq_nil.2 h).symm
  let after := (r.pass scene).scene
  have hevaluated : (r.pass scene).visits.map (·.point.name) =
      (scene.points.filter r.options.visits).map Point.name :=
    (congrArg PassReport.evaluated hreport).symm.trans (evaluated_eq h hr)
  calc report.unstable
      = ((r.pass scene).visits.filter (!·.point.stable)).map (·.point.name) :=
        congrArg PassReport.unstable hreport
    _ = ((r.pass scene).visits.map (·.point.name)).filter after.unstableAt := by
        rw [List.filter_map]
        refine congrArg (List.map _) (List.filter_congr fun v hv => ?_)
        exact (Scene.unstableAt_of_find? (find?_of_mem_visits_pass hv)).symm
    _ = ((scene.points.filter r.options.visits).map Point.name).filter after.unstableAt := by
        rw [hevaluated]
    _ = scene.names.filter after.unstableAt := by
        unfold Scene.names
        rw [List.filter_map, List.filter_map, List.filter_filter]
        refine congrArg (List.map Point.name) (List.filter_congr fun p hp => ?_)
        -- a point that is not due cannot be unstable behind the pass
        by_cases hdue : r.options.visits p
        · simp [hdue]
        · obtain ⟨hstable, hfind⟩ := find?_pass_of_not_due h hr hp hdue
          have hafter : after.unstableAt p.name = false := by
            rw [Scene.unstableAt_of_find? hfind, hstable]
            rfl
          simp [hafter]
    _ = Solution.unstableNames after := by
        rw [Solution.unstableNames_eq, names_pass]

/-- In a completed pass the points that move are those that are left unstable. -/
lemma moved_eq_unstable [OrderedScalar α] (hr : (r.pass scene).report = .ok report) :
    report.moved = report.unstable := by
  rcases report_cases hr with ⟨-, rfl⟩ | ⟨-, rfl⟩
  · rfl
  · refine congrArg (List.map _) (List.filter_congr fun v hv => ?_)
    have hcompleted := fault?_of_mem_visits_pass hr hv
    obtain ⟨scene', p, s', -, rfl, -⟩ := exists_of_mem_visits_pass hv
    exact (Visit.outcome_make hcompleted).moved_eq

/-- Only points that are evaluated move. -/
lemma moved_subset_evaluated (hr : (r.pass scene).report = .ok report) :
    report.moved ⊆ report.evaluated := by
  rcases report_cases hr with ⟨-, rfl⟩ | ⟨-, rfl⟩
  · exact List.Subset.refl []
  · exact (List.filter_sublist.map _).subset

/-- The points that moved are those that are unstable behind the pass. -/
lemma mem_moved_iff [OrderedScalar α] (hr : (r.pass scene).report = .ok report) {name : String}
    {q : Point α} (hq : (r.pass scene).scene.find? name = some q) :
    name ∈ report.moved ↔ q.stable = false := by
  obtain ⟨hmem, hname⟩ := Scene.find?_eq_some_iff.1 hq
  rw [moved_eq_unstable hr, unstable_eq hr, Solution.unstableNames_eq, List.mem_filter,
    Scene.unstableAt_of_find? hq, Bool.not_eq_true']
  exact and_iff_right (hname ▸ Scene.mem_names_of_mem hmem)

/-- Whether a report leaves no point unstable is whether the pass does. -/
lemma allStable_iff (hr : (r.pass scene).report = .ok report) :
    report.allStable ↔ (r.pass scene).scene.allStable := by
  rcases report_cases hr with ⟨h, rfl⟩ | ⟨-, hreport⟩
  · rw [pass_idle h]
    exact iff_of_true rfl h
  · have hidle : report.idle = false := congrArg PassReport.idle hreport
    unfold PassReport.allStable
    rw [hidle, Bool.false_or, List.isEmpty_iff, unstable_eq hr, Solution.unstableNames_eq_nil]

/-- Counts are reported in the order in which the points were evaluated. -/
lemma degenerate_sublist (hr : (r.pass scene).report = .ok report) :
    (report.degenerate.map Prod.fst).Sublist report.evaluated := by
  rcases report_cases hr with ⟨-, rfl⟩ | ⟨-, rfl⟩
  · exact List.Sublist.refl []
  · simp only [PassReport.ofVisits, List.map_map]
    exact List.filter_sublist.map _

/-- What the counts of a report say of the points that were evaluated. -/
lemma mem_degenerate_iff (hr : (r.pass scene).report = .ok report) {name : String} {n : ℕ} :
    (name, n) ∈ report.degenerate ↔ name ∈ report.evaluated ∧ 1 ≤ n ∧
      ∃ q, (r.pass scene).scene.find? name = some q ∧ q.degenerate = n := by
  rcases report_cases hr with ⟨-, rfl⟩ | ⟨-, rfl⟩
  · simp [PassReport.ofIdle]
  · simp only [PassReport.ofVisits, List.mem_map, List.mem_filter, decide_eq_true_eq,
      Prod.mk.injEq]
    constructor
    · rintro ⟨v, ⟨hv, hpos⟩, rfl, rfl⟩
      exact ⟨⟨v, hv, rfl⟩, by omega, v.point, find?_of_mem_visits_pass hv, by omega⟩
    · rintro ⟨⟨v, hv, rfl⟩, hpos, q, hq, hn⟩
      obtain rfl : v.point = q := Option.some.inj ((find?_of_mem_visits_pass hv).symm.trans hq)
      exact ⟨v, ⟨hv, by omega⟩, rfl, by omega⟩

/-- Each point that a completed pass evaluates stands behind it as a visit left it, with the count
of its degenerate candidates. -/
lemma exists_visit_of_evaluated (hr : (r.pass scene).report = .ok report) :
    ∀ name ∈ report.evaluated, ∃ v ∈ (r.pass scene).visits,
      (r.pass scene).scene.find? name = some v.point ∧
      v.point.degenerate = (v.point.candidates.cells.countP
        (v.found.rule.degenerateAt scene.decimals ((r.pass scene).view.places v.scene)) : ℕ) ∧
      v.point.degenerate ≤ v.point.candidates.size ∧
      v.point.candidates.size ≤ r.options.samples := by
  rcases report_cases hr with ⟨-, rfl⟩ | ⟨-, rfl⟩
  · simp [PassReport.ofIdle]
  · intro name hname
    obtain ⟨v, hv, rfl⟩ := List.mem_map.1 hname
    have hcompleted := fault?_of_mem_visits_pass hr hv
    have hfind := find?_of_mem_visits_pass hv
    refine ⟨v, hv, hfind, ?_⟩
    obtain ⟨scene', p, s', -, rfl, hd⟩ := exists_of_mem_visits_pass hv
    obtain ⟨hdegenerate, hsize⟩ := Visit.degenerate_make hcompleted
    rw [Visit.scene_make, Visit.found_make, ← hd]
    refine ⟨hdegenerate, ?_, hsize⟩
    rw [hdegenerate, Int.ofNat_le]
    exact List.countP_le_length.trans (List.length_map _).le

end Relaxation

/-- The report of a completed pass and the scene behind it agree. The report is idle exactly if
every point was stable before, and then nothing changes. Otherwise it lists as evaluated all points,
or those that were unstable if stable points are passed over. It lists no point twice. The points
that it says moved are those that it calls unstable, and these are all unstable points of the scene.
It counts degenerate candidates for exactly the evaluated points that have some, as the points
themselves do: as many as there are cells where the geometry was degenerate when the point was
visited, out of no more candidates than samples. -/
theorem report_agrees [OrderedScalar α] (r : Relaxation α σ) (scene : Scene α)
    {report : PassReport} (hr : (r.pass scene).report = .ok report) :
    let pass := r.pass scene
    (report.idle ↔ scene.allStable) ∧
    (report.idle → pass.scene = scene ∧ pass.relaxation = r) ∧
    (¬ report.idle → report.evaluated =
      if r.options.skipStable then Solution.unstableNames scene else scene.names) ∧
    report.evaluated.Nodup ∧
    report.moved = report.unstable ∧
    report.unstable = Solution.unstableNames pass.scene ∧
    (report.allStable ↔ pass.scene.allStable) ∧
    (report.degenerate.map Prod.fst).Sublist report.evaluated ∧
    (∀ name n, (name, n) ∈ report.degenerate ↔ name ∈ report.evaluated ∧ 1 ≤ n ∧
      ∃ q, pass.scene.find? name = some q ∧ q.degenerate = n) ∧
    (∀ name ∈ report.evaluated, ∃ v ∈ pass.visits, pass.scene.find? name = some v.point ∧
      v.point.degenerate = (v.point.candidates.cells.countP
        (v.found.rule.degenerateAt scene.decimals (pass.view.places v.scene)) : ℕ) ∧
      v.point.degenerate ≤ v.point.candidates.size ∧
      v.point.candidates.size ≤ r.options.samples) := by
  intro pass
  refine ⟨Relaxation.idle_iff hr, fun hidle => ?_, fun hidle => ?_, Relaxation.nodup_evaluated hr,
    Relaxation.moved_eq_unstable hr, Relaxation.unstable_eq hr, Relaxation.allStable_iff hr,
    Relaxation.degenerate_sublist hr, fun name n => Relaxation.mem_degenerate_iff hr,
    Relaxation.exists_visit_of_evaluated hr⟩
  · have hpass : pass = _ := Relaxation.pass_idle ((Relaxation.idle_iff hr).1 hidle)
    rw [hpass]
    exact ⟨rfl, rfl⟩
  · exact Relaxation.evaluated_eq_names (fun h => hidle ((Relaxation.idle_iff hr).2 h)) hr

/-- Both points of the pursuit move in its first pass and are unstable behind it. -/
theorem report_agrees_pursuit :
    Solution.unstableNames Exact.pursuitPass.scene = ["A", "B"] ∧
      ∃ q, Exact.pursuitPass.scene.find? "B" = some q ∧ q.candidates.size ≤ 2 := by
  obtain ⟨-, -, -, -, -, hunstable, -, -, -, hevaluated⟩ := report_agrees
    (.start Exact.pursuitOptions Exact.pursuitDraws) Exact.pursuit Exact.report_pursuitPass
  obtain ⟨v, -, hv, -, -, hsize⟩ := hevaluated "B" (by decide)
  exact ⟨hunstable.symm, v.point, hv, hsize⟩

end PointRelaxation
