import PointRelaxation.Proofs.Sweep
import PointRelaxation.Relaxation.Solution

/-!
# Passes and runs of passes

* `Relaxation.pass_idle`: a pass over a stable scene does nothing.
* `Relaxation.pass_eq_ok`: a pass that does something and is completed is its sweep.
* `Relaxation.run_induction`: the induction over the passes of a run that no fault ends.
-/

namespace PointRelaxation

variable {α : Type}

namespace Scene

lemma allStable_iff {scene : Scene α} : scene.allStable ↔ ∀ p ∈ scene.points, p.stable :=
  List.all_eq_true

end Scene

variable [Scalar α] {σ : Type} [Draws σ α] {r : Relaxation α σ} {scene : Scene α}

namespace Relaxation

/-! ## One pass -/

lemma pass_idle (h : scene.allStable) :
    r.pass scene = ⟨r.passes, View.make scene r.options.snapshot, r, scene, [],
      .ok (.ofIdle r.passes)⟩ := by
  unfold pass
  rw [if_pos h]

lemma pass_eq_of_none (h : ¬ scene.allStable) (hf : (r.sweepDue scene).fault = none) :
    r.pass scene = ⟨r.passes, View.make scene r.options.snapshot,
      { r with source := (r.sweepDue scene).source, passes := r.passes + 1 },
      (r.sweepDue scene).scene, (r.sweepDue scene).visits,
      .ok (.ofVisits r.passes (r.sweepDue scene).visits)⟩ := by
  unfold pass
  simp only [if_neg h, hf]

lemma pass_eq_of_some (h : ¬ scene.allStable) {f : Fault α}
    (hf : (r.sweepDue scene).fault = some f) :
    r.pass scene = ⟨r.passes, View.make scene r.options.snapshot,
      { r with source := (r.sweepDue scene).source }, (r.sweepDue scene).scene,
      (r.sweepDue scene).visits, .error f⟩ := by
  unfold pass
  simp only [if_neg h, hf]

/-- A pass that does something leaves the scene of its sweep, whether or not it is completed. -/
lemma scene_pass (h : ¬ scene.allStable) : (r.pass scene).scene = (r.sweepDue scene).scene := by
  rcases hf : (r.sweepDue scene).fault with _ | f
  · rw [pass_eq_of_none h hf]
  · rw [pass_eq_of_some h hf]

lemma visits_pass (h : ¬ scene.allStable) : (r.pass scene).visits = (r.sweepDue scene).visits := by
  rcases hf : (r.sweepDue scene).fault with _ | f
  · rw [pass_eq_of_none h hf]
  · rw [pass_eq_of_some h hf]

lemma view_pass : (r.pass scene).view = View.make scene r.options.snapshot := by
  by_cases h : scene.allStable
  · rw [pass_idle h]
  · rcases hf : (r.sweepDue scene).fault with _ | f
    · rw [pass_eq_of_none h hf]
    · rw [pass_eq_of_some h hf]

lemma report_pass (h : ¬ scene.allStable) : (r.pass scene).report =
    match (r.sweepDue scene).fault with
    | some f => .error f
    | none => .ok (.ofVisits r.passes (r.sweepDue scene).visits) := by
  rcases hf : (r.sweepDue scene).fault with _ | f
  · rw [pass_eq_of_none h hf]
  · rw [pass_eq_of_some h hf]

/-- A pass leaves the source of its sweep, and is counted if it is completed. -/
lemma relaxation_pass (h : ¬ scene.allStable) : (r.pass scene).relaxation =
    { r with
      source := (r.sweepDue scene).source
      passes := if (r.sweepDue scene).fault.isNone then r.passes + 1 else r.passes } := by
  rcases hf : (r.sweepDue scene).fault with _ | f
  · rw [pass_eq_of_none h hf]
    rfl
  · rw [pass_eq_of_some h hf]
    rfl

/-- A pass that does something and is completed is its sweep, and it is counted. -/
lemma pass_eq_ok (h : ¬ scene.allStable) {report : PassReport}
    (hr : (r.pass scene).report = .ok report) :
    (r.sweepDue scene).fault = none ∧ (r.pass scene).scene = (r.sweepDue scene).scene ∧
      report = .ofVisits r.passes (r.sweepDue scene).visits := by
  rcases hf : (r.sweepDue scene).fault with _ | f
  · rw [pass_eq_of_none h hf] at hr ⊢
    exact ⟨rfl, rfl, (Except.ok.inj hr).symm⟩
  · rw [pass_eq_of_some h hf] at hr
    cases hr

/-- The report of a pass says that it was idle exactly if there was nothing to do. -/
lemma idle_iff {report : PassReport} (hr : (r.pass scene).report = .ok report) :
    report.idle ↔ scene.allStable := by
  by_cases h : scene.allStable
  · rw [pass_idle h, Except.ok.injEq] at hr
    simp [← hr, PassReport.ofIdle, h]
  · obtain ⟨-, -, hreport⟩ := pass_eq_ok h hr
    simp [hreport, PassReport.ofVisits, h]

@[simp] lemma options_pass : (r.pass scene).relaxation.options = r.options := by
  by_cases h : scene.allStable
  · rw [pass_idle h]
  · rw [relaxation_pass h]

/-- What every replacement keeps, a pass keeps, whether or not it is completed. -/
lemma pass_keeps {γ : Type} (f : Scene α → γ) (hf : ∀ scene p, f (scene.replace p) = f scene) :
    f (r.pass scene).scene = f scene := by
  by_cases h : scene.allStable
  · rw [pass_idle h]
  · rw [scene_pass h]
    exact sweep_keeps f hf

@[simp] lemma decimals_pass : (r.pass scene).scene.decimals = scene.decimals :=
  pass_keeps Scene.decimals Scene.decimals_replace

@[simp] lemma names_pass : (r.pass scene).scene.names = scene.names :=
  pass_keeps Scene.names Scene.names_replace

/-! ## What a completed pass evaluates and writes -/

/-- A completed pass that does something evaluates the points that are due, in order. -/
lemma evaluated_eq (h : ¬ scene.allStable) {report : PassReport}
    (hr : (r.pass scene).report = .ok report) :
    report.evaluated = (scene.points.filter r.options.visits).map Point.name := by
  obtain ⟨hf, -, rfl⟩ := pass_eq_ok h hr
  exact map_name_visits (Visit.point_name_make _ _) hf

lemma evaluated_subset_names {report : PassReport} (hr : (r.pass scene).report = .ok report) :
    ∀ name ∈ report.evaluated, name ∈ scene.names := by
  intro name hn
  by_cases h : scene.allStable
  · rw [pass_idle h] at hr
    obtain rfl := Except.ok.inj hr
    exact absurd hn List.not_mem_nil
  · rw [evaluated_eq h hr] at hn
    obtain ⟨p, hp, rfl⟩ := List.mem_map.1 hn
    exact Scene.mem_names_of_mem (List.mem_of_mem_filter hp)

/-- Behind a completed pass stand the evaluated points as their visits left them, and the other
points as they were. -/
lemma mem_points_pass (h : ¬ scene.allStable) {report : PassReport}
    (hr : (r.pass scene).report = .ok report) {q : Point α} :
    q ∈ (r.pass scene).scene.points ↔
      (∃ v ∈ (r.sweepDue scene).visits, v.point = q) ∨
        (q ∈ scene.points ∧ q.name ∉ report.evaluated) := by
  obtain ⟨hf, hscene, rfl⟩ := pass_eq_ok h hr
  have hsub : ∀ p ∈ scene.points.filter r.options.visits, p.name ∈ scene.names :=
    fun p hp => Scene.mem_names_of_mem (List.mem_of_mem_filter hp)
  rw [hscene]
  unfold sweepDue
  rw [mem_points_sweep (Visit.point_name_make _ _) (scene.nodup_names_filter _) hsub]
  simp [PassReport.ofVisits]

/-- A point that a completed pass does not evaluate stays as it is. -/
lemma find?_pass_of_not_evaluated {report : PassReport}
    (hr : (r.pass scene).report = .ok report) {p : Point α} (hp : p ∈ scene.points)
    (hnew : p.name ∉ report.evaluated) : (r.pass scene).scene.find? p.name = some p := by
  by_cases h : scene.allStable
  · rw [pass_idle h]
    exact Scene.find?_eq_some_iff.2 ⟨hp, rfl⟩
  · exact Scene.find?_eq_some_iff.2 ⟨(mem_points_pass h hr).2 (.inr ⟨hp, hnew⟩), rfl⟩

/-- Each point that a pass visits stands behind it as its visit left it, whether or not the pass is
completed. -/
lemma find?_of_mem_visits_pass {v : Visit α} (hv : v ∈ (r.pass scene).visits) :
    (r.pass scene).scene.find? v.point.name = some v.point := by
  by_cases h : scene.allStable
  · rw [pass_idle h] at hv
    exact absurd hv List.not_mem_nil
  · rw [visits_pass h] at hv
    rw [scene_pass h]
    exact find?_of_mem_visits (Visit.point_name_make _ _) (scene.nodup_names_filter _)
      (fun p hp => Scene.mem_names_of_mem (List.mem_of_mem_filter hp)) hv

/-- Each visit of a pass was made to a point that was due, with the view of the pass, in a scene of
the same decimals. -/
lemma exists_of_mem_visits_pass {v : Visit α} (hv : v ∈ (r.pass scene).visits) :
    ∃ (scene' : Scene α) (p : Point α) (s' : σ), p ∈ scene.points.filter r.options.visits ∧
      v = (Visit.make r.options (r.pass scene).view scene' p s').1 ∧
      scene'.decimals = scene.decimals := by
  by_cases h : scene.allStable
  · rw [pass_idle h] at hv
    exact absurd hv List.not_mem_nil
  · rw [visits_pass h] at hv
    rw [view_pass]
    exact exists_of_mem_visits hv

/-- No visit of a completed pass met a fault. -/
lemma fault?_of_mem_visits_pass {report : PassReport} (hr : (r.pass scene).report = .ok report)
    {v : Visit α} (hv : v ∈ (r.pass scene).visits) : v.fault? = none := by
  by_cases h : scene.allStable
  · rw [pass_idle h] at hv
    exact absurd hv List.not_mem_nil
  · rw [visits_pass h] at hv
    exact fault?_of_mem_visits (pass_eq_ok h hr).1 hv

/-- The report of a completed pass: nothing was done, or it is that of the visits. -/
lemma report_cases {report : PassReport} (hr : (r.pass scene).report = .ok report) :
    scene.allStable ∧ report = .ofIdle r.passes ∨
      ¬ scene.allStable ∧ report = .ofVisits r.passes (r.pass scene).visits := by
  by_cases h : scene.allStable
  · rw [pass_idle h] at hr
    exact .inl ⟨h, (Except.ok.inj hr).symm⟩
  · obtain ⟨-, -, hreport⟩ := pass_eq_ok h hr
    rw [visits_pass h]
    exact .inr ⟨h, hreport⟩

/-! ## Runs -/

variable {β : Type} {note : Pass α σ → List β} {limit : ℕ}

lemma run_of_allStable (h : scene.allStable) :
    r.run note limit scene = ⟨r, scene, 0, [], none, none⟩ := by
  cases limit with
  | zero => rfl
  | succ limit =>
    rw [run]
    rw [if_pos h]

lemma run_succ_of_error (h : ¬ scene.allStable) {f : Fault α}
    (hr : (r.pass scene).report = .error f) :
    r.run note (limit + 1) scene =
      ⟨(r.pass scene).relaxation, (r.pass scene).scene, 0, note (r.pass scene), none, some f⟩ := by
  rw [run, if_neg h]
  simp only [hr]

lemma run_succ_of_ok (h : ¬ scene.allStable) {report : PassReport}
    (hr : (r.pass scene).report = .ok report) :
    r.run note (limit + 1) scene =
      let rest := (r.pass scene).relaxation.run note limit (r.pass scene).scene
      { rest with
        count := rest.count + 1
        notes := note (r.pass scene) ++ rest.notes
        last := rest.last.or (some report) } := by
  rw [run, if_neg h]
  simp only [hr]

/-- Induction over a run that no fault ends. It does nothing, because its budget is spent or every
point is stable; or it is a completed pass with such a run behind it. -/
lemma run_induction {P : ℕ → Relaxation α σ → Scene α → Run α σ β → Prop}
    (stop : ∀ limit r scene, limit = 0 ∨ scene.allStable →
      P limit r scene ⟨r, scene, 0, [], none, none⟩)
    (pass : ∀ limit r scene report rest, ¬ scene.allStable → (r.pass scene).report = .ok report →
      P limit (r.pass scene).relaxation (r.pass scene).scene rest →
      P (limit + 1) r scene { rest with
        count := rest.count + 1
        notes := note (r.pass scene) ++ rest.notes
        last := rest.last.or (some report) })
    (hf : (r.run note limit scene).fault = none) : P limit r scene (r.run note limit scene) := by
  induction limit generalizing r scene with
  | zero => exact stop 0 r scene (.inl rfl)
  | succ limit ih =>
    by_cases h : scene.allStable
    · rw [run_of_allStable h]
      exact stop (limit + 1) r scene (.inr h)
    · rcases hr : (r.pass scene).report with f | report
      · rw [run_succ_of_error h hr] at hf
        exact absurd hf (Option.some_ne_none f)
      · rw [run_succ_of_ok h hr] at hf ⊢
        exact pass limit r scene report _ h hr (ih hf)

end Relaxation
end PointRelaxation
