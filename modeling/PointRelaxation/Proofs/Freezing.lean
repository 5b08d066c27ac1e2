import PointRelaxation.Proofs.Iteration
import PointRelaxation.Proofs.Report

/-!
# Stable points that are passed over

A relaxation that passes over stable points never writes them and never asks their rules. Of such a
point the others see where it stands and nothing else.

* `Relaxation.mem_points_iterate`: a stable point stays as it is, whatever becomes of the others.
* `Relaxation.evaluated_eq_unstable`: a pass evaluates what the pass before it left unstable.
* `Relaxation.pass_withRules`: the rules of stable points are of no concern to a pass.
* `stable_points_frozen`: all this of runs of any length.
-/

namespace PointRelaxation

variable {α σ : Type}

/-! ## Other rules for some points -/

/-- The point with the rule that is given for its name, if one is. -/
def Point.withRules (rules : String → Option (Rule α)) (p : Point α) : Point α :=
  { p with rule := (rules p.name).getD p.rule }

/-- The scene with other rules for some of its points. -/
def Scene.withRules (rules : String → Option (Rule α)) (scene : Scene α) : Scene α :=
  scene.mapPoints (Point.withRules rules) fun _ => rfl

/-- The visit in the scene with other rules, of a point that keeps its own. -/
def Visit.withRules (rules : String → Option (Rule α)) (v : Visit α) : Visit α :=
  { v with scene := v.scene.withRules rules }

/-- The same sweep over a scene with other rules. -/
def Sweep.withRules (rules : String → Option (Rule α)) (s : Sweep α σ) : Sweep α σ :=
  { s with scene := s.scene.withRules rules, visits := s.visits.map (Visit.withRules rules) }

/-- The same pass over a scene with other rules: it leaves the same relaxation, makes the same
report and visits the same points with the same outcomes. -/
def Pass.withRules (rules : String → Option (Rule α)) (pass : Pass α σ) : Pass α σ :=
  { pass with
    scene := pass.scene.withRules rules
    visits := pass.visits.map (Visit.withRules rules) }

/-- The same end of a run over a scene with other rules. -/
def Aftermath.withRules (rules : String → Option (Rule α)) (a : Aftermath α σ) : Aftermath α σ :=
  { a with scene := a.scene.withRules rules }

/-- Rules that are given to stable points only. -/
def Scene.Spares (scene : Scene α) (rules : String → Option (Rule α)) : Prop :=
  ∀ p ∈ scene.points, (rules p.name).isSome → p.stable

variable {rules : String → Option (Rule α)} {scene : Scene α}

lemma Point.withRules_of_eq_none {p : Point α} (h : rules p.name = none) :
    p.withRules rules = p := by
  unfold withRules
  rw [h]
  rfl

lemma Scene.positions_withRules : (scene.withRules rules).positions = scene.positions := by
  simp [positions, withRules, mapPoints, Point.withRules]

lemma Scene.allStable_withRules : (scene.withRules rules).allStable = scene.allStable := by
  simp [allStable, withRules, mapPoints, Function.comp_def, Point.withRules]

/-- Replacing a point that keeps its rule and giving the others new ones go together. -/
lemma Scene.replace_withRules {p : Point α} (h : rules p.name = none) :
    (scene.withRules rules).replace p = (scene.replace p).withRules rules := by
  simp only [replace, withRules, mapPoints, List.map_map, mk.injEq, true_and, and_true]
  refine List.map_congr_left fun q _ => ?_
  have hname : (q.withRules rules).name = q.name := rfl
  by_cases hq : q.name = p.name
  · simp [hname, hq, Point.withRules_of_eq_none h]
  · simp [hname, hq]

/-- A point that is due is not stable, so it keeps its rule. -/
lemma Scene.Spares.eq_none (hspares : scene.Spares rules) {options : Options α}
    (hskip : options.skipStable) :
    ∀ p ∈ scene.points.filter options.visits, rules p.name = none := by
  intro p hp
  obtain ⟨hmem, hdue⟩ := List.mem_filter.1 hp
  have hunstable : p.stable = false := by simpa [Options.visits, hskip] using hdue
  refine Option.not_isSome_iff_eq_none.1 fun hsome => ?_
  exact absurd (hspares p hmem hsome) (by simp [hunstable])

lemma Scene.Spares.due (hspares : scene.Spares rules) {options : Options α}
    (hskip : options.skipStable) :
    (scene.withRules rules).points.filter options.visits = scene.points.filter options.visits := by
  have hvisits : options.visits ∘ Point.withRules rules = options.visits := rfl
  unfold withRules mapPoints
  rw [List.filter_map, hvisits]
  have hkeep : ∀ p ∈ scene.points.filter options.visits, p.withRules rules = p := fun p hp =>
    Point.withRules_of_eq_none (hspares.eq_none hskip p hp)
  exact (List.map_congr_left hkeep).trans (List.map_id _)

lemma PassReport.ofVisits_withRules (index : ℕ) (vs : List (Visit α)) :
    ofVisits index (vs.map (Visit.withRules rules)) = ofVisits index vs := by
  simp only [ofVisits, List.filter_map, List.map_map]
  rfl

/-- If stable points stay as they are, then those that are unstable in the end were so before. -/
lemma Solution.unstableNames_sublist {after : Scene α} (hnames : after.names = scene.names)
    (h : ∀ p ∈ scene.points, p.stable → p ∈ after.points) :
    (unstableNames after).Sublist (unstableNames scene) := by
  rw [unstableNames_eq, unstableNames_eq, hnames]
  refine List.monotone_filter_right _ fun name hafter => ?_
  rcases hq : after.find? name with _ | q
  · simp [Scene.unstableAt, hq] at hafter
  · obtain ⟨hqmem, rfl⟩ := Scene.find?_eq_some_iff.1 hq
    obtain ⟨p, hp, hpq⟩ := List.mem_map.1 (hnames ▸ Scene.mem_names_of_mem hqmem)
    have hp' : scene.find? q.name = some p := Scene.find?_eq_some_iff.2 ⟨hp, hpq⟩
    rw [Scene.unstableAt_of_find? hq] at hafter
    rw [Scene.unstableAt_of_find? hp']
    by_contra hstable
    obtain rfl : p = q := Scene.eq_of_name_eq (h p hp (by simpa using hstable)) hqmem hpq
    exact hstable hafter

variable [Scalar α] [Draws σ α]

/-- A visit to a point that keeps its rule is the same in the scene with other rules. -/
lemma Visit.make_withRules (options : Options α) (view : View α) (p : Point α) (s : σ) :
    make options view (scene.withRules rules) p s =
      ((make options view scene p s).1.withRules rules, (make options view scene p s).2) := by
  have hplaces : view.places (scene.withRules rules) = view.places scene :=
    view.places_eq_of_positions Scene.positions_withRules
  have hcloud : ∀ m, ofCloud view (scene.withRules rules) p m =
      (ofCloud view scene p m).withRules rules := by
    intro m
    unfold ofCloud
    rw [hplaces]
    rfl
  have hseed :
      Candidates.seed (scene.withRules rules).decimals p.position options.samples options.radius s =
        Candidates.seed scene.decimals p.position options.samples options.radius s := rfl
  rcases h : (Candidates.seed scene.decimals p.position options.samples options.radius s).1 with
    f | m
  · rw [make_of_seed_error h, make_of_seed_error ((congrArg Prod.fst hseed).trans h), hseed]
    rfl
  · rw [make_of_seed_ok h, make_of_seed_ok ((congrArg Prod.fst hseed).trans h), hcloud, hseed]

/-- A sweep over points that keep their rules is the same in the scene with other rules. -/
lemma sweep_withRules (options : Options α) (view : View α) {ps : List (Point α)} (s : σ)
    (h : ∀ p ∈ ps, rules p.name = none) :
    sweep (Visit.make options view) ps (scene.withRules rules) s =
      (sweep (Visit.make options view) ps scene s).withRules rules := by
  induction ps generalizing scene s with
  | nil => rfl
  | cons p ps ih =>
    obtain ⟨hp, hps⟩ := List.forall_mem_cons.1 h
    have hmake : Visit.make options view (scene.withRules rules) p s =
        ((Visit.make options view scene p s).1.withRules rules,
          (Visit.make options view scene p s).2) := Visit.make_withRules options view p s
    have hname : rules (Visit.make options view scene p s).1.point.name = none := by
      rw [Visit.point_name_make, hp]
    have hreplace : (scene.withRules rules).replace (Visit.make options view scene p s).1.point =
        (scene.replace (Visit.make options view scene p s).1.point).withRules rules :=
      Scene.replace_withRules hname
    have hpoint : ((Visit.make options view scene p s).1.withRules rules).point =
        (Visit.make options view scene p s).1.point := rfl
    rcases hf : (Visit.make options view scene p s).1.fault? with _ | f
    · have hf' : (Visit.make options view (scene.withRules rules) p s).1.fault? = none := by
        rw [hmake]
        exact hf
      rw [sweep_cons_of_none hf, sweep_cons_of_none hf', hmake, hpoint, hreplace, ih _ hps]
      rfl
    · have hf' : (Visit.make options view (scene.withRules rules) p s).1.fault? = some f := by
        rw [hmake]
        exact hf
      rw [sweep_cons_of_some hf, sweep_cons_of_some hf', hmake, hpoint, hreplace]
      rfl

namespace Relaxation

variable {r : Relaxation α σ}

/-! ## One pass -/

/-- A stable point stands behind a pass as before it, whether or not the pass is completed. -/
lemma mem_points_pass_of_stable (hskip : r.options.skipStable) {p : Point α}
    (hp : p ∈ scene.points) (hstable : p.stable) : p ∈ (r.pass scene).scene.points := by
  by_cases h : scene.allStable
  · rw [pass_idle h]
    exact hp
  · have hnot : p.name ∉ (scene.points.filter r.options.visits).map Point.name := by
      rw [List.mem_map]
      rintro ⟨q, hq, hname⟩
      obtain ⟨hqmem, hdue⟩ := List.mem_filter.1 hq
      obtain rfl : q = p := Scene.eq_of_name_eq hqmem hp hname
      simp [Options.visits, hskip, hstable] at hdue
    have hfind := find?_of_not_mem (s := r.source)
      (Visit.point_name_make r.options (View.make scene r.options.snapshot))
      (scene.nodup_names_filter r.options.visits)
      (fun q hq => Scene.mem_names_of_mem (List.mem_of_mem_filter hq)) hp hnot
    rw [scene_pass h]
    exact (Scene.find?_eq_some_iff.1 hfind).1

/-- A pass evaluates what the pass before it left unstable. -/
lemma evaluated_eq_unstable (hskip : r.options.skipStable) {report report' : PassReport}
    (hr : (r.pass scene).report = .ok report)
    (hr' : ((r.pass scene).relaxation.pass (r.pass scene).scene).report = .ok report') :
    report'.evaluated = report.unstable := by
  rw [unstable_eq hr]
  by_cases h : (r.pass scene).scene.allStable
  · rw [pass_idle h] at hr'
    obtain rfl := Except.ok.inj hr'
    exact (Solution.unstableNames_eq_nil.2 h).symm
  · rw [evaluated_eq_names h hr', options_pass, if_pos hskip]

/-- The rules of stable points are of no concern to a pass, whether or not it is completed. -/
lemma pass_withRules (hskip : r.options.skipStable) (hspares : scene.Spares rules) :
    r.pass (scene.withRules rules) = (r.pass scene).withRules rules := by
  have hview : View.make (scene.withRules rules) r.options.snapshot =
      View.make scene r.options.snapshot := by
    cases r.options.snapshot with
    | false => rfl
    | true => exact congrArg View.frozen Scene.positions_withRules
  by_cases h : scene.allStable
  · have h' : (scene.withRules rules).allStable := Scene.allStable_withRules.trans h
    rw [pass_idle h, pass_idle h', hview]
    rfl
  · have h' : ¬ (scene.withRules rules).allStable := by rwa [Scene.allStable_withRules]
    have hsweep : r.sweepDue (scene.withRules rules) = (r.sweepDue scene).withRules rules := by
      unfold sweepDue
      rw [hview, hspares.due hskip]
      exact sweep_withRules r.options _ r.source (hspares.eq_none hskip)
    rcases hf : (r.sweepDue scene).fault with _ | f
    · have hf' : (r.sweepDue (scene.withRules rules)).fault = none := by rw [hsweep]; exact hf
      rw [pass_eq_of_none h hf, pass_eq_of_none h' hf', hsweep, hview]
      simp only [Sweep.withRules, PassReport.ofVisits_withRules]
      rfl
    · have hf' : (r.sweepDue (scene.withRules rules)).fault = some f := by rw [hsweep]; exact hf
      rw [pass_eq_of_some h hf, pass_eq_of_some h' hf', hsweep, hview]
      rfl

/-! ## Runs -/

variable {n : ℕ}

/-- A stable point stands behind any number of passes as before them. -/
lemma mem_points_iterate (hskip : r.options.skipStable) {p : Point α} (hp : p ∈ scene.points)
    (hstable : p.stable) : p ∈ (r.iterate n scene).scene.points := by
  induction n generalizing r scene with
  | zero => exact hp
  | succ n ih =>
    have hpass := mem_points_pass_of_stable hskip hp hstable
    rcases hr : (r.pass scene).report with f | report
    · rw [iterate_succ_of_error hr]
      exact hpass
    · rw [iterate_succ_of_ok hr]
      have hskip' : (r.pass scene).relaxation.options.skipStable := by rwa [options_pass]
      exact ih hskip' hpass

/-- The rules of points that are stable at the beginning are of no concern to a run. -/
lemma iterate_withRules (hskip : r.options.skipStable) (hspares : scene.Spares rules) :
    r.iterate n (scene.withRules rules) = (r.iterate n scene).withRules rules := by
  induction n generalizing r scene with
  | zero => rfl
  | succ n ih =>
    have hpass := pass_withRules hskip hspares
    -- the points that may have other rules are still stable behind the pass
    have hspares' : (r.pass scene).scene.Spares rules := by
      intro q hq hsome
      have hname : q.name ∈ scene.names := names_pass (r := r) ▸ Scene.mem_names_of_mem hq
      obtain ⟨p, hp, hpq⟩ := List.mem_map.1 hname
      have hstable := hspares p hp (hpq ▸ hsome)
      obtain rfl : q = p := Scene.eq_of_name_eq hq (mem_points_pass_of_stable hskip hp hstable)
        hpq.symm
      exact hstable
    have hreport : (r.pass (scene.withRules rules)).report = (r.pass scene).report := by
      rw [hpass]
      rfl
    rcases hr : (r.pass scene).report with f | report
    · rw [iterate_succ_of_error hr, iterate_succ_of_error (hreport.trans hr), hpass]
      rfl
    · have hskip' : (r.pass scene).relaxation.options.skipStable := by rwa [options_pass]
      rw [iterate_succ_of_ok hr, iterate_succ_of_ok (hreport.trans hr), hpass]
      exact ih hskip' hspares'

end Relaxation

/-- In a completed run that passes over stable points, a point that is stable behind some of the
passes stands at the end as it stood there: in all it holds, its position, score, flag and
candidates among it. So the unstable points become fewer, and behind the first pass each pass
evaluates exactly those that the pass before it left unstable. And the rules of the points that are
stable at some time are of no concern from then on: with any others in their place, such as fail,
the next pass and all that follow do the same. -/
theorem stable_points_frozen (r : Relaxation α σ) (hskip : r.options.skipStable) (scene : Scene α)
    (n : ℕ) (hf : (r.iterate n scene).fault = none) :
    (∀ m ≤ n, ∀ p ∈ (r.iterate m scene).scene.points, p.stable →
      p ∈ (r.iterate n scene).scene.points) ∧
    (∀ m ≤ n, (Solution.unstableNames (r.iterate n scene).scene).Sublist
      (Solution.unstableNames (r.iterate m scene).scene)) ∧
    (∀ m, m + 1 < n → ∃ report report', (r.passBehind m scene).report = .ok report ∧
      (r.passBehind (m + 1) scene).report = .ok report' ∧
      report'.evaluated = report.unstable) ∧
    (∀ m ≤ n, ∀ rules, (r.iterate m scene).scene.Spares rules →
      let behind := r.iterate m scene
      behind.relaxation.pass (behind.scene.withRules rules) =
        (r.passBehind m scene).withRules rules ∧
      ∀ k, behind.relaxation.iterate k (behind.scene.withRules rules) =
        (behind.relaxation.iterate k behind.scene).withRules rules) := by
  have hoptions : ∀ m, (r.iterate m scene).relaxation.options.skipStable := fun m => by
    rwa [Relaxation.options_iterate]
  have hkept : ∀ m ≤ n, ∀ p ∈ (r.iterate m scene).scene.points, p.stable →
      p ∈ (r.iterate n scene).scene.points := by
    intro m hle p hp hstable
    obtain ⟨k, rfl⟩ := Nat.exists_eq_add_of_le hle
    rw [Relaxation.iterate_add (Relaxation.fault_iterate_of_le hle hf)]
    exact Relaxation.mem_points_iterate (hoptions m) hp hstable
  refine ⟨hkept, fun m hle => ?_, fun m hlt => ?_, fun m hle rules hspares => ⟨?_, fun k => ?_⟩⟩
  · refine Solution.unstableNames_sublist ?_ (hkept m hle)
    rw [Relaxation.names_iterate, Relaxation.names_iterate]
  · obtain ⟨report, hr, hnext⟩ := Relaxation.exists_report_passBehind (Nat.lt_of_succ_lt hlt) hf
    obtain ⟨report', hr', -⟩ := Relaxation.exists_report_passBehind hlt hf
    refine ⟨report, report', hr, hr', Relaxation.evaluated_eq_unstable (hoptions m) hr ?_⟩
    unfold Relaxation.passBehind at hr'
    rw [hnext] at hr'
    exact hr'
  · exact Relaxation.pass_withRules (hoptions m) hspares
  · exact Relaxation.iterate_withRules (hoptions m) hspares

/-- A rule for the point `B` that fails everywhere. -/
def strayRules (name : String) : Option (Rule Exact) :=
  if name = "B" then some fun _ _ => .error (.unknownPoint "C") else none

/-- In the pursuit against a frozen view only the leader moves in the first pass. Its follower is
stable then, too far off, and stays so, though its rule might fail. -/
theorem stable_points_frozen_pursuit :
    let r := Relaxation.start { Exact.pursuitOptions with snapshot := true, skipStable := true }
      Exact.pursuitDraws
    let first := r.iterate 1 Exact.pursuit
    let second := r.iterate 2 Exact.pursuit
    second.fault = none ∧
      (∃ p ∈ first.scene.points, p.name = "B" ∧ p.stable ∧ p ∈ second.scene.points) ∧
      (∃ report report', (r.passBehind 0 Exact.pursuit).report = .ok report ∧
        (r.passBehind 1 Exact.pursuit).report = .ok report' ∧
        report'.evaluated = report.unstable) ∧
      first.relaxation.pass (first.scene.withRules strayRules) =
        (r.passBehind 1 Exact.pursuit).withRules strayRules := by
  intro r first second
  have hskip : r.options.skipStable := rfl
  have hfault : second.fault.isNone := by
    simp only [second, Relaxation.iterate, Relaxation.pass, Relaxation.sweepDue,
      Visit.make_eq_listed]
    decide +kernel
  have hstable : first.scene.points.map (fun p => (p.name, p.stable)) =
      [("A", false), ("B", true)] := by
    simp only [first, Relaxation.iterate, Relaxation.pass, Relaxation.sweepDue,
      Visit.make_eq_listed]
    decide +kernel
  obtain ⟨hkept, -, hreports, hrules⟩ := stable_points_frozen r hskip Exact.pursuit 2
    (Option.isNone_iff_eq_none.1 hfault)
  have hmem : ("B", true) ∈ first.scene.points.map fun p => (p.name, p.stable) := by simp [hstable]
  obtain ⟨p, hp, heq⟩ := List.mem_map.1 hmem
  obtain ⟨hname, hp_stable⟩ := Prod.mk.inj heq
  refine ⟨Option.isNone_iff_eq_none.1 hfault, ⟨p, hp, hname, hp_stable, ?_⟩, ?_, ?_⟩
  · exact hkept 1 (by decide) p hp hp_stable
  · exact hreports 0 (by decide)
  · refine (hrules 1 (by decide) strayRules fun q hq hsome => ?_).1
    have hqname : q.name = "B" := by
      by_contra hne
      simp [strayRules, hne] at hsome
    have hqp : q = p := Scene.eq_of_name_eq hq hp (hqname.trans hname.symm)
    rwa [hqp]

end PointRelaxation
