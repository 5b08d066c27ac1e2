import PointRelaxation.Proofs.Evaluation
import PointRelaxation.Proofs.Exact
import PointRelaxation.Proofs.Pass

/-!
# Live and frozen views

A live view shows the moves of the points that a pass has visited already, and a frozen one does
not. As long as no point has moved the two show the same, so the passes that read them differ only
behind the first move. What they draw is the same throughout.

* `Scene.Contained`: rules that fail nowhere but at degenerate geometry, wherever the points stand.
* `sweep_live_eq_frozen`: sweeps agree if no point but the last one they visit moves.
* `live_frozen_agree`: passes agree up to the first move, and in all that they draw.
-/

namespace PointRelaxation

variable {α σ : Type}

/-- The same relaxation with views that are frozen, or are not. -/
def Relaxation.withSnapshot (frozen : Bool) (r : Relaxation α σ) : Relaxation α σ :=
  { r with options := { r.options with snapshot := frozen } }

variable [Scalar α]

/-- The rules of a scene fail nowhere but at degenerate geometry, wherever its points stand. -/
def Scene.Contained (scene : Scene α) : Prop :=
  ∀ p ∈ scene.points, ∀ other : Scene α, other.names = scene.names → p.rule.Contained other.places

/-- The verdict of a contained rule on a cell is never missing but for want of a position. -/
lemma Verdict.exists_ofCell_iff_place {decimals : ℤ} {rule : Rule α} {places : Places α} {c : Cell}
    (hrule : rule.Contained places) :
    (∃ v, ofCell decimals rule places c = .ok v) ↔ ∃ v : Vec α, Grid.place decimals c = .ok v := by
  refine ⟨fun ⟨v, hv⟩ => ?_, exists_ofCell_of_contained hrule⟩
  obtain ⟨p, hp, -⟩ := bind_eq_ok.1 hv
  exact ⟨p, hp⟩

/-- Where the others stand does not decide whether a point of a contained rule can be settled. -/
lemma Point.fits_congr {decimals : ℕ} {places places' : Places α} {p : Point α}
    (h : p.rule.Contained places) (h' : p.rule.Contained places') (m : Candidates α) :
    p.Fits decimals places m ↔ p.Fits decimals places' m := by
  have hscored : ∀ c, (∃ v, Verdict.ofCell decimals p.rule places c = .ok v) ↔
      ∃ v, Verdict.ofCell decimals p.rule places' c = .ok v := by
    intro c
    rw [Verdict.exists_ofCell_iff_place h, Verdict.exists_ofCell_iff_place h']
  constructor
  · rintro ⟨hne, hall, hstanding⟩
    exact ⟨hne, fun e he => (hscored e.1).1 (hall e he), hstanding⟩
  · rintro ⟨hne, hall, hstanding⟩
    exact ⟨hne, fun e he => (hscored e.1).2 (hall e he), hstanding⟩

variable [Draws σ α]

/-- Visits to a point of a contained rule are completed in either view, or in neither. -/
lemma Visit.fault?_make_congr [OrderedScalar α] {view view' : View α} {scene scene' : Scene α}
    {p : Point α} (hd : scene.decimals = scene'.decimals)
    (h : p.rule.Contained (view.places scene)) (h' : p.rule.Contained (view'.places scene'))
    (options : Options α) (s : σ) :
    (make options view scene p s).1.fault? = none ↔
      (make options view' scene' p s).1.fault? = none := by
  rcases hseed : (Candidates.seed scene.decimals p.position options.samples options.radius s).1 with
    f | m
  · rw [make_of_seed_error hseed, make_of_seed_error (hd ▸ hseed)]
    rfl
  · rw [make_of_seed_ok hseed, make_of_seed_ok (hd ▸ hseed), fault?_ofCloud, fault?_ofCloud, ← hd]
    exact Point.fits_congr h h' m

variable {options : Options α} {scene : Scene α} {ps : List (Point α)} {s : σ}

/-! ## Sweeps -/

/-- As long as no point has moved, a live view shows what was frozen. If no point but the last one
visited moves, then a sweep is the same against either. -/
lemma sweep_live_eq_frozen {positions : List (String × Vec α)} (hpos : scene.positions = positions)
    (hnd : (ps.map Point.name).Nodup) (hsub : ∀ p ∈ ps, p ∈ scene.points)
    (h : ∀ v ∈ (sweep (Visit.make options .live) ps scene s).visits.dropLast, v.moved = false) :
    sweep (Visit.make options .live) ps scene s =
      sweep (Visit.make options (.frozen positions)) ps scene s := by
  -- on the points still to be visited, as long as all points stand where they were frozen
  induction ps generalizing scene s with
  | nil => rfl
  | cons p ps ih =>
    have hplaces : View.live.places scene = (View.frozen positions).places scene :=
      hpos ▸ Scene.places_eq_frozen scene scene
    have hvisit := Visit.make_congr hplaces options p s
    rcases hf : (Visit.make options .live scene p s).1.fault? with _ | f
    · rw [sweep_cons_of_none hf, sweep_cons_of_none (hvisit ▸ hf), ← hvisit]
      rcases ps with _ | ⟨q, qs⟩
      · rfl
      · -- the first point is not the last one visited, so it does not move
        rw [sweep_cons_of_none hf, List.dropLast_cons_of_ne_nil visits_cons_ne_nil,
          List.forall_mem_cons] at h
        have hname := Visit.point_name_make options .live scene p s
        have hpos' : (scene.replace (Visit.make options .live scene p s).1.point).positions =
            positions :=
          (Scene.positions_replace (hsub p List.mem_cons_self) hname
            (Visit.position_make h.1)).trans hpos
        have hsub' := Scene.forall_mem_replace hname hnd hsub
        rw [List.map_cons, List.nodup_cons] at hnd
        rw [ih hpos' hnd.2 hsub' h.2]
    · rw [sweep_cons_of_some hf, sweep_cons_of_some (hvisit ▸ hf), ← hvisit]

/-- Against whatever views and from whatever positions, sweeps over points of contained rules visit
the same points, with the same clouds, and are completed or not alike. -/
lemma sweep_draws_alike [OrderedScalar α] {view view' : View α} {scene scene' : Scene α}
    {ps : List (Point α)} (options : Options α) (s : σ) (hd : scene.decimals = scene'.decimals)
    (hnames : scene.names = scene'.names)
    (h : ∀ p ∈ ps, ∀ other : Scene α, other.names = scene.names →
      p.rule.Contained (view.places other) ∧ p.rule.Contained (view'.places other)) :
    let a := sweep (Visit.make options view) ps scene s
    let b := sweep (Visit.make options view') ps scene' s
    a.visits.map Visit.found = b.visits.map Visit.found ∧
      a.visits.map Visit.cloud? = b.visits.map Visit.cloud? ∧
      a.source = b.source ∧ (a.fault = none ↔ b.fault = none) := by
  intro a b
  -- the two scenes drift apart, but not in what a visit draws from or in what can interrupt it
  induction ps generalizing scene scene' s with
  | nil => exact ⟨rfl, rfl, rfl, Iff.rfl⟩
  | cons p ps ih =>
    obtain ⟨hp, hps⟩ := List.forall_mem_cons.1 h
    have hfault := Visit.fault?_make_congr hd (hp scene rfl).1 (hp scene' hnames.symm).2 options s
    have hcloud : (Visit.make options view scene p s).1.cloud? =
        (Visit.make options view' scene' p s).1.cloud? := by
      rw [Visit.cloud?_make, Visit.cloud?_make, hd]
    have hsource : (Visit.make options view scene p s).2 =
        (Visit.make options view' scene' p s).2 := by
      rw [Visit.source_make, Visit.source_make, hd]
    rcases hf : (Visit.make options view scene p s).1.fault? with _ | f
    · -- the visits write different points perhaps, but under one name
      obtain ⟨hfound, hclouds, hsources, hfaults⟩ :=
        @ih (scene.replace (Visit.make options view scene p s).1.point)
          (scene'.replace (Visit.make options view' scene' p s).1.point)
          (Visit.make options view scene p s).2
          hd (by rw [Scene.names_replace, Scene.names_replace, hnames])
          (by simpa only [Scene.names_replace] using hps)
      simp only [a, b, sweep_cons_of_none hf, sweep_cons_of_none (hfault.1 hf), List.map_cons,
        Visit.found_make, hcloud, ← hsource]
      exact ⟨congrArg (p :: ·) hfound, congrArg (_ :: ·) hclouds, hsources, hfaults⟩
    · obtain ⟨g, hg⟩ := Option.ne_none_iff_exists'.1 fun hnone =>
        Option.some_ne_none f (hf.symm.trans (hfault.2 hnone))
      simp only [a, b, sweep_cons_of_some hf, sweep_cons_of_some hg, List.map_cons,
        Visit.found_make, hcloud, hsource]
      exact ⟨trivial, trivial, trivial, by simp⟩

/-! ## Passes -/

namespace Relaxation

variable {r : Relaxation α σ}

lemma sweepDue_live (r : Relaxation α σ) (scene : Scene α) :
    (r.withSnapshot false).sweepDue scene =
      sweep (Visit.make r.options .live) (scene.points.filter r.options.visits) scene r.source :=
  rfl

lemma sweepDue_frozen (r : Relaxation α σ) (scene : Scene α) :
    (r.withSnapshot true).sweepDue scene =
      sweep (Visit.make r.options (.frozen scene.positions))
        (scene.points.filter r.options.visits) scene r.source :=
  rfl

/-- A frozen pass makes the visits of a live one up to the first that moves its point. -/
lemma take_visits_frozen {k : ℕ}
    (hk : ∀ v ∈ ((r.withSnapshot false).pass scene).visits.take k, v.moved = false) :
    ((r.withSnapshot true).pass scene).visits.take (k + 1) =
      ((r.withSnapshot false).pass scene).visits.take (k + 1) := by
  by_cases h : scene.allStable
  · rw [pass_idle h, pass_idle h]
  · rw [visits_pass h, sweepDue_live] at hk
    rw [visits_pass h, visits_pass h, sweepDue_live, sweepDue_frozen, take_visits, take_visits]
    have hnd : (((scene.points.filter r.options.visits).take (k + 1)).map Point.name).Nodup :=
      (scene.nodup_names_filter _).sublist ((List.take_sublist _ _).map _)
    refine congrArg Sweep.visits (sweep_live_eq_frozen rfl hnd ?_ ?_).symm
    · exact fun p hp => List.mem_of_mem_filter (List.mem_of_mem_take hp)
    · -- all of the first `k + 1` visits but the last are among the first `k`
      intro v hv
      rw [← take_visits, List.dropLast_eq_take, List.take_take] at hv
      refine hk v (List.take_subset_take_left _ ?_ hv)
      rw [List.length_take]
      omega

/-- A frozen pass is a live one if that moves no point but the last it visits. -/
lemma pass_frozen_eq_live
    (hlast : ∀ v ∈ ((r.withSnapshot false).pass scene).visits.dropLast, v.moved = false) :
    let live := (r.withSnapshot false).pass scene
    let frozen := (r.withSnapshot true).pass scene
    frozen.scene = live.scene ∧ frozen.visits = live.visits ∧ frozen.report = live.report ∧
      frozen.relaxation = live.relaxation.withSnapshot true := by
  intro live frozen
  by_cases h : scene.allStable
  · have hlive : live = _ := pass_idle h
    have hfrozen : frozen = _ := pass_idle h
    rw [hlive, hfrozen]
    exact ⟨rfl, rfl, rfl, rfl⟩
  · rw [visits_pass h, sweepDue_live] at hlast
    have hsweep : (r.withSnapshot false).sweepDue scene = (r.withSnapshot true).sweepDue scene :=
      sweep_live_eq_frozen rfl (scene.nodup_names_filter _)
        (fun p hp => List.mem_of_mem_filter hp) hlast
    refine ⟨?_, ?_, ?_, ?_⟩
    · rw [scene_pass h, scene_pass h, hsweep]
    · rw [visits_pass h, visits_pass h, hsweep]
    · rw [report_pass h, report_pass h, hsweep]
      rfl
    · rw [relaxation_pass h, relaxation_pass h, hsweep]
      rfl

/-- With contained rules a frozen pass draws what a live one draws. -/
lemma pass_draws_alike [OrderedScalar α] (hrules : scene.Contained) :
    let live := (r.withSnapshot false).pass scene
    let frozen := (r.withSnapshot true).pass scene
    frozen.visits.map Visit.found = live.visits.map Visit.found ∧
      frozen.visits.map Visit.cloud? = live.visits.map Visit.cloud? ∧
      frozen.relaxation = live.relaxation.withSnapshot true := by
  intro live frozen
  by_cases h : scene.allStable
  · have hlive : live = _ := pass_idle h
    have hfrozen : frozen = _ := pass_idle h
    rw [hlive, hfrozen]
    exact ⟨rfl, rfl, rfl⟩
  · have hdue : ∀ p ∈ scene.points.filter r.options.visits, ∀ other : Scene α,
        other.names = scene.names → p.rule.Contained ((View.frozen scene.positions).places other) ∧
          p.rule.Contained (View.live.places other) := by
      intro p hp other hnames
      have hp : p ∈ scene.points := List.mem_of_mem_filter hp
      rw [← Scene.places_eq_frozen scene other]
      exact ⟨hrules p hp scene rfl, hrules p hp other hnames⟩
    obtain ⟨hfound, hclouds, hsource, hfault⟩ :=
      sweep_draws_alike r.options r.source rfl rfl hdue
    rw [← sweepDue_live, ← sweepDue_frozen] at hfound hclouds hsource hfault
    refine ⟨?_, ?_, ?_⟩
    · rw [visits_pass h, visits_pass h, hfound]
    · rw [visits_pass h, visits_pass h, hclouds]
    · have hnone : ((r.withSnapshot true).sweepDue scene).fault.isNone =
          ((r.withSnapshot false).sweepDue scene).fault.isNone := by
        rw [Bool.eq_iff_iff, Option.isNone_iff_eq_none, Option.isNone_iff_eq_none, hfault]
      rw [relaxation_pass h, relaxation_pass h, hsource, hnone]
      rfl

end Relaxation

/-- The rules of the pursuit fail nowhere. -/
lemma Exact.contained_pursuit : Exact.pursuit.Contained := by
  intro p hp other hnames v f hf
  have hleader : "A" ∈ other.names := by
    rw [hnames]
    decide
  obtain ⟨leader, hplace⟩ := Scene.exists_places_of_mem hleader
  obtain rfl | rfl : p = .unvisited "A" toOrigin startingPoint ∨
      p = .unvisited "B" toLeader startingPoint := by simpa [Exact.pursuit] using hp
  · cases hf
  · simp only [Point.unvisited, toLeader, hplace] at hf
    cases hf

/-- A live pass and a frozen one agree until the first point moves in the live pass: the visits up
to and including that of the mover are the same, and all these points end the same. If no point
moves but the last one visited, then the passes agree in all they leave and in their reports. And if
the rules fail nowhere but at degenerate geometry, then the two always visit the same points, draw
the same clouds for them, and leave the same source and the same count of passes. -/
theorem live_frozen_agree [OrderedScalar α] (r : Relaxation α σ) (scene : Scene α) :
    let live := (r.withSnapshot false).pass scene
    let frozen := (r.withSnapshot true).pass scene
    (∀ k, (∀ v ∈ live.visits.take k, v.moved = false) →
      frozen.visits.take (k + 1) = live.visits.take (k + 1) ∧
      ∀ v ∈ live.visits.take (k + 1),
        live.scene.find? v.point.name = some v.point ∧
          frozen.scene.find? v.point.name = some v.point) ∧
    ((∀ v ∈ live.visits.dropLast, v.moved = false) →
      frozen.scene = live.scene ∧ frozen.visits = live.visits ∧ frozen.report = live.report ∧
        frozen.relaxation = live.relaxation.withSnapshot true) ∧
    (scene.Contained →
      frozen.visits.map Visit.found = live.visits.map Visit.found ∧
      frozen.visits.map Visit.cloud? = live.visits.map Visit.cloud? ∧
      frozen.relaxation = live.relaxation.withSnapshot true) := by
  intro live frozen
  refine ⟨fun k hk => ?_, Relaxation.pass_frozen_eq_live, Relaxation.pass_draws_alike⟩
  have htake : frozen.visits.take (k + 1) = live.visits.take (k + 1) :=
    Relaxation.take_visits_frozen hk
  refine ⟨htake, fun v hv => ⟨?_, ?_⟩⟩
  · exact Relaxation.find?_of_mem_visits_pass (List.mem_of_mem_take hv)
  · exact Relaxation.find?_of_mem_visits_pass (List.mem_of_mem_take (htake ▸ hv))

/-- In the pursuit the leader moves first, the same against either view. Its follower moves only if
it can see that. A point that is alone moves the same against either view. -/
theorem live_frozen_agree_pursuit :
    let start := Relaxation.start Exact.pursuitOptions Exact.pursuitDraws
    let live := (start.withSnapshot false).pass Exact.pursuit
    let frozen := (start.withSnapshot true).pass Exact.pursuit
    live.visits.map Visit.moved = [true, true] ∧ frozen.visits.map Visit.moved = [true, false] ∧
      frozen.visits.take 1 = live.visits.take 1 ∧
      frozen.visits.map Visit.cloud? = live.visits.map Visit.cloud? ∧
      ((start.withSnapshot true).pass Exact.solitude).scene =
        ((start.withSnapshot false).pass Exact.solitude).scene := by
  intro start live frozen
  obtain ⟨hfirst, -, hdraws⟩ := live_frozen_agree start Exact.pursuit
  obtain ⟨-, halone, -⟩ := live_frozen_agree start Exact.solitude
  refine ⟨?_, ?_, (hfirst 0 (by simp)).1, (hdraws Exact.contained_pursuit).2.1, (halone ?_).1⟩
  · simp only [live, start, Relaxation.pass, Relaxation.sweepDue, Visit.make_eq_listed]
    decide +kernel
  · simp only [frozen, start, Relaxation.pass, Relaxation.sweepDue, Visit.make_eq_listed]
    decide +kernel
  · have hvisits : (((start.withSnapshot false).pass Exact.solitude).visits.map
        Visit.moved).dropLast = [] := by
      simp only [start, Relaxation.pass, Relaxation.sweepDue, Visit.make_eq_listed]
      decide +kernel
    rw [← List.map_dropLast, List.map_eq_nil_iff] at hvisits
    simp [hvisits]

end PointRelaxation
