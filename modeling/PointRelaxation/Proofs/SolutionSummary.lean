import Mathlib.Tactic.TFAE
import PointRelaxation.Proofs.Iteration
import PointRelaxation.Proofs.Report

/-!
# Solutions and the scenes they speak of

A solution is put together from the registry, from the last report and from the way the run ended.
These agree: whether it is a success can be told from the flags, from the rank and from the
warnings, and its warnings are those of the scene it was taken from.

* `Relaxation.map_point_visits`: a pass over all points visits the points it leaves.
* `solution_truthful`: a solution and the scene behind its run.
-/

namespace PointRelaxation

variable {α σ β : Type}

namespace Solution

/-- What a scene warns of: each point that counts degenerate candidates. -/
def degenerateWarnings (scene : Scene α) : List Warning :=
  (scene.points.filter (0 < ·.degenerate)).map fun p => .degenerate p.name p.degenerate.toNat

/-- A solution lists the points of a scene in the order of registration, each once, with what the
scene holds of them. -/
structure Lists (s : Solution α) (scene : Scene α) : Prop where
  positions : s.positions = scene.points.map fun p => (p.name, p.position)
  scores : s.scores = scene.points.map fun p => (p.name, p.score)
  stable : s.stable = scene.points.map fun p => (p.name, p.stable)
  nodup : scene.names.Nodup

lemma lists_ofRun (limit : ℕ) (run : Run α σ β) : (ofRun limit run).Lists run.scene :=
  ⟨rfl, rfl, rfl, run.scene.nodup⟩

/-! ## Success -/

lemma success_iff_flags (limit : ℕ) (run : Run α σ β) :
    (ofRun limit run).success ↔ ∀ e ∈ (ofRun limit run).stable, e.2 := by
  have hlists := (lists_ofRun limit run).stable
  have hsuccess : (ofRun limit run).success = run.scene.allStable := rfl
  rw [hlists, hsuccess, Scene.allStable_iff, List.forall_mem_map]

lemma flags_iff_rank [Scalar α] (s : Solution α) : (∀ e ∈ s.stable, e.2) ↔ s.rank.1 = 0 := by
  show _ ↔ (s.stable.filter fun e => !e.2).length = 0
  simp [List.length_eq_zero_iff, List.filter_eq_nil_iff]

/-- A solution warns of unstable points exactly if it is no success. -/
lemma success_iff_warnings (limit : ℕ) (run : Run α σ β) :
    (ofRun limit run).success ↔
      ∀ passes names, Warning.unstable passes names ∉ (ofRun limit run).warnings := by
  show run.scene.allStable ↔ ∀ passes names, _ ∉ _ ++ _
  by_cases h : run.scene.allStable
  · simp [h]
  · simp only [h, if_false, Bool.false_eq_true, false_iff, not_forall, not_not]
    exact ⟨_, _, List.mem_append_right _ List.mem_cons_self⟩

/-- Whether a solution is a success can be told from its flags, its rank and its warnings. -/
lemma success_tfae [Scalar α] (limit : ℕ) (run : Run α σ β) :
    let s := ofRun limit run
    [s.success = true, ∀ e ∈ s.stable, e.2 = true, s.rank.1 = 0,
      ∀ passes names, Warning.unstable passes names ∉ s.warnings].TFAE := by
  intro s
  tfae_have 1 ↔ 2 := success_iff_flags limit run
  tfae_have 2 ↔ 3 := flags_iff_rank s
  tfae_have 1 ↔ 4 := success_iff_warnings limit run
  tfae_finish

/-- The warnings of a solution, for a given last report. -/
lemma warnings_ofRun {limit : ℕ} {run : Run α σ β} {last : Option PassReport}
    (hlast : run.last = last) : (ofRun limit run).warnings =
      ((last.map PassReport.degenerate).getD []).map (fun e => .degenerate e.1 e.2) ++
        (if run.scene.allStable then [] else [.unstable limit (unstableNames run.scene)]) := by
  rw [← hlast]
  rfl

end Solution

variable [Scalar α] [Draws σ α]

namespace Relaxation

variable {r : Relaxation α σ} {scene : Scene α} {report : PassReport}

/-! ## A pass over all points -/

omit [Scalar α] [Draws σ α] in
/-- Points of a scene that have its names in order are its points. -/
lemma eq_points_of_names {ps : List (Point α)} (hnames : ps.map Point.name = scene.names)
    (hmem : ∀ p ∈ ps, p ∈ scene.points) : ps = scene.points := by
  have hfind : ∀ qs : List (Point α), (∀ p ∈ qs, p ∈ scene.points) →
      (qs.map Point.name).map scene.find? = qs.map some := by
    intro qs hqs
    rw [List.map_map]
    exact List.map_congr_left fun p hp => Scene.find?_eq_some_iff.2 ⟨hqs p hp, rfl⟩
  refine List.map_injective_iff.2 (Option.some_injective _) ?_
  rw [← hfind ps hmem, hnames, Scene.names, hfind _ fun p hp => hp]

/-- A completed pass that passes over no point visits the points it leaves. -/
lemma map_point_visits (hskip : r.options.skipStable = false) (h : ¬ scene.allStable)
    (hr : (r.pass scene).report = .ok report) :
    (r.pass scene).visits.map Visit.point = (r.pass scene).scene.points := by
  apply eq_points_of_names
  · have hevaluated := evaluated_eq_names h hr
    rw [hskip] at hevaluated
    obtain ⟨-, rfl⟩ := (report_cases hr).resolve_left fun hidle => h hidle.1
    rw [names_pass, List.map_map]
    exact hevaluated
  · intro p hp
    obtain ⟨v, hv, rfl⟩ := List.mem_map.1 hp
    exact (Scene.find?_eq_some_iff.1 (find?_of_mem_visits_pass hv)).1

/-- Its report counts what the points it leaves count. -/
lemma degenerate_eq (hskip : r.options.skipStable = false) (h : ¬ scene.allStable)
    (hr : (r.pass scene).report = .ok report) :
    report.degenerate.map (fun e => Warning.degenerate e.1 e.2) =
      Solution.degenerateWarnings (r.pass scene).scene := by
  obtain ⟨-, rfl⟩ := (report_cases hr).resolve_left fun hidle => h hidle.1
  unfold Solution.degenerateWarnings
  rw [← map_point_visits hskip h hr, List.filter_map, List.map_map]
  simp only [PassReport.ofVisits, List.map_map]
  rfl

/-- Each point that such a pass leaves counts the cells where its rule was degenerate when it was
visited. -/
lemma exists_visit_of_mem (hskip : r.options.skipStable = false) (h : ¬ scene.allStable)
    (hr : (r.pass scene).report = .ok report) :
    ∀ p ∈ (r.pass scene).scene.points, ∃ v ∈ (r.pass scene).visits, v.point = p ∧
      p.degenerate = (p.candidates.cells.countP
        (v.found.rule.degenerateAt scene.decimals ((r.pass scene).view.places v.scene)) : ℕ) := by
  intro p hp
  have hevaluated : p.name ∈ report.evaluated := by
    rw [evaluated_eq_names h hr, hskip, ← names_pass (r := r)]
    exact Scene.mem_names_of_mem hp
  obtain ⟨v, hv, hfind, hcount, -⟩ := exists_visit_of_evaluated hr p.name hevaluated
  obtain rfl : v.point = p :=
    Option.some.inj (hfind.symm.trans (Scene.find?_eq_some_iff.2 ⟨hp, rfl⟩))
  exact ⟨v, hv, rfl, hcount⟩

end Relaxation

/-- A solution tells the truth about the scene that its run leaves. It lists every point once, in
the order of registration, with what the scene holds of it. Whether it is a success can as well be
told from its flags, from its rank and from its warnings. It warns of the points that count
degenerate candidates, in the order of registration, and then, if it is no success, of the unstable
points by name; in that case all passes were spent. What a point counts are the cells among its
candidates where its rule was degenerate when the last pass visited it. -/
theorem solution_truthful (note : Pass α σ → List β) (options : Options α)
    (hskip : options.skipStable = false) (source : σ) (scene : Scene α)
    (hf : (Relaxation.solve note options source scene).fault = none) :
    let run := Relaxation.solve note options source scene
    let solution := Solution.ofRun options.maxPasses run
    let last := (Relaxation.start options source).passBehind (solution.passes - 1) scene
    solution.Lists run.scene ∧ run.scene.names = scene.names ∧
    [solution.success = true, ∀ e ∈ solution.stable, e.2 = true, solution.rank.1 = 0,
      ∀ passes names, Warning.unstable passes names ∉ solution.warnings].TFAE ∧
    solution.warnings =
      (if solution.passes = 0 then [] else Solution.degenerateWarnings run.scene) ++
        (if solution.success then []
          else [.unstable options.maxPasses (Solution.unstableNames run.scene)]) ∧
    (¬ solution.success → solution.passes = options.maxPasses) ∧
    (solution.passes ≠ 0 → run.scene = last.scene ∧ ∀ p ∈ run.scene.points,
      ∃ v ∈ last.visits, v.point = p ∧
        p.degenerate = (p.candidates.cells.countP
          (v.found.rule.degenerateAt scene.decimals (last.view.places v.scene)) : ℕ)) := by
  intro run solution last
  have hcount : solution.passes = run.count := (Relaxation.passes_run hf).trans (Nat.zero_add _)
  have hnames : run.scene.names = scene.names := by
    have hscene : run.scene = _ := congrArg Aftermath.scene Relaxation.aftermath_run
    rw [hscene, Relaxation.names_iterate]
  have htfae := Solution.success_tfae options.maxPasses run
  have hspent : ¬ solution.success → solution.passes = options.maxPasses := fun hfail =>
    hcount.trans (Relaxation.count_of_not_allStable hf hfail)
  rcases Relaxation.exists_last_report hf with
    ⟨hzero, -, hlast⟩ | ⟨n, report, hn, hunstable, hr, hscene, hlast⟩
  · have hidle : solution.passes = 0 := hcount.trans hzero
    refine ⟨Solution.lists_ofRun _ _, hnames, htfae, ?_, hspent, fun h => absurd hidle h⟩
    rw [if_pos hidle]
    exact Solution.warnings_ofRun hlast
  · have hpasses : solution.passes = n + 1 := hcount.trans hn
    have hbehind : last = (Relaxation.start options source).passBehind n scene :=
      congrArg (fun k => (Relaxation.start options source).passBehind (k - 1) scene) hpasses
    have hscene' : run.scene = last.scene := hscene.trans (congrArg Pass.scene hbehind.symm)
    have hskip' : ((Relaxation.start options source).iterate n
        scene).relaxation.options.skipStable = false := by
      rw [Relaxation.options_iterate]
      exact hskip
    refine ⟨Solution.lists_ofRun _ _, hnames, htfae, ?_, hspent, fun _ => ⟨hscene', ?_⟩⟩
    · have hran : ¬ solution.passes = 0 := by
        rw [hpasses]
        exact Nat.succ_ne_zero n
      have hcounts := Relaxation.degenerate_eq hskip' hunstable hr
      refine (Solution.warnings_ofRun hlast).trans (congrArg (· ++ _) ?_)
      rw [if_neg hran, hscene', hbehind]
      exact hcounts
    · rw [hscene', hbehind]
      intro p hp
      have hvisit := Relaxation.exists_visit_of_mem hskip' hunstable hr p hp
      rwa [Relaxation.decimals_iterate] at hvisit

namespace Exact

/-- The pursuit with a leader that is worth the inverse of its abscissa, beside the cell where there
is none. -/
def brink : Scene Exact :=
  { pursuit with
    points := [.unvisited "A" (fun v _ => Scalar.quotient 1.0 v.x) startingPoint,
      .unvisited "B" toOrigin startingPoint]
    nodup := by decide }

/-- One pass over it. -/
def brinkRun : Run Exact (Script Exact) Unit :=
  Relaxation.solve (fun _ => []) { pursuitOptions with maxPasses := 1 } pursuitDraws brink

/-- The leader stays where it is and sees the degenerate cell, the other point moves. -/
lemma brinkRun_spec : brinkRun.fault = none ∧ brinkRun.scene.allStable = false ∧
    brinkRun.relaxation.passes = 1 ∧
    Solution.degenerateWarnings brinkRun.scene = [.degenerate "A" 1] ∧
    Solution.unstableNames brinkRun.scene = ["B"] := by
  unfold brinkRun pursuitOptions
  simp only [Relaxation.solve, Relaxation.run, Relaxation.pass, Relaxation.sweepDue,
    Visit.make_eq_listed]
  decide +kernel

end Exact

/-- A solution that warns of the leader's degenerate cell and of the follower's unrest. -/
theorem solution_truthful_brink :
    let solution := Solution.ofRun 1 Exact.brinkRun
    solution.warnings = [.degenerate "A" 1, .unstable 1 ["B"]] ∧ solution.rank.1 ≠ 0 ∧
      solution.passes = 1 := by
  obtain ⟨hf, hfail, hpasses, hdegenerate, hunstable⟩ := Exact.brinkRun_spec
  obtain ⟨-, -, htfae, hwarnings, -, -⟩ := solution_truthful (fun _ => ([] : List Unit))
    { Exact.pursuitOptions with maxPasses := 1 } rfl Exact.pursuitDraws Exact.brink hf
  have hran : ¬ Exact.brinkRun.relaxation.passes = 0 := by simp [hpasses]
  refine ⟨hwarnings.trans ?_, fun hrank => ?_, hpasses⟩
  · show (if Exact.brinkRun.relaxation.passes = 0 then [] else
        Solution.degenerateWarnings Exact.brinkRun.scene) ++
      (if Exact.brinkRun.scene.allStable then [] else
        [Warning.unstable 1 (Solution.unstableNames Exact.brinkRun.scene)]) = _
    rw [if_neg hran, hdegenerate, hfail, hunstable]
    rfl
  · exact Bool.noConfusion (hfail.symm.trans ((htfae.out 0 2).2 hrank))

end PointRelaxation
