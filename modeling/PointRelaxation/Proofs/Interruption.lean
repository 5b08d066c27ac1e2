import PointRelaxation.Proofs.Evaluation
import PointRelaxation.Proofs.Exact
import PointRelaxation.Proofs.Pass
import PointRelaxation.Proofs.WordCells

/-!
# Passes that a rule interrupts

A rule that fails ends the pass at once. The points before it are as their visits left them, its own
point is left in the middle of an evaluation, and those behind it have not been touched.

* `Relaxation.InterruptedAt`: the point and the cell at which the rule fails.
* `Point.CutOff`: what that leaves of the point.
* `interrupted_pass`: what it leaves of the scene, and that nothing else interrupts an evaluation.
-/

namespace PointRelaxation

variable {α : Type} [Scalar α]

/-- What is left of the point `p` when its rule fails at the cell at place `i`: the cells before
that are scored and the others are not, and all else is as it was. -/
structure Point.CutOff (decimals : ℕ) (places : Places α) (proposed : List Cell) (i : ℕ)
    (p q : Point α) : Prop where
  name : q.name = p.name
  rule : q.rule = p.rule
  position : q.position = p.position
  score : q.score = p.score
  stable : q.stable = p.stable
  cells : q.candidates.cells = proposed
  scored : ∀ e ∈ q.candidates.entries.take i,
    ∃ s, e.2 = some s ∧ p.rule.ScoresAt decimals places e.1 s
  unscored : ∀ e ∈ q.candidates.entries.drop i, e.2 = none
  degenerate : q.degenerate =
    ((proposed.take i).countP (p.rule.degenerateAt decimals places) : ℕ)

/-- A visit with a fresh cloud leaves its point cut off where the rule fails. -/
lemma Visit.ofCloud_of_failsAt {view : View α} {scene : Scene α} {p : Point α} {m : Candidates α}
    {i : ℕ} {f : Fault α} (hm : m.entries = m.cells.map fun c => (c, none))
    (h : p.rule.FailsAt scene.decimals (view.places scene) m.cells i f) :
    ∃ q, ofCloud view scene p m = ⟨scene, p, .unscored f q⟩ ∧
      p.CutOff scene.decimals (view.places scene) m.cells i q := by
  obtain ⟨hfault, hcells, hscored, hunscored, hdegenerate⟩ := Candidates.evaluate_of_failsAt h
  rcases ofCloud_cases view scene p m with ⟨g, hg, hv⟩ | ⟨hnone, -⟩ | ⟨hnone, -⟩
  · rw [hfault, Option.some.injEq] at hg
    subst hg
    refine ⟨_, hv, rfl, rfl, rfl, rfl, rfl, hcells, hscored, ?_, congrArg Nat.cast hdegenerate⟩
    intro e he
    rw [hunscored, hm] at he
    obtain ⟨c, -, rfl⟩ := List.mem_map.1 (List.mem_of_mem_drop he)
    rfl
  · exact absurd (hfault.symm.trans hnone) (Option.some_ne_none f)
  · exact absurd (hfault.symm.trans hnone) (Option.some_ne_none f)

variable {σ : Type} [Draws σ α]

namespace Relaxation

/-- The sweep of a pass over the first of the points that are due. -/
def sweepOver (r : Relaxation α σ) (scene : Scene α) (ps : List (Point α)) : Sweep α σ :=
  sweep (Visit.make r.options (View.make scene r.options.snapshot)) ps scene r.source

/-- Where the points stand for a rule when the points `before` its own have been visited. -/
def placesBehind (r : Relaxation α σ) (scene : Scene α) (before : List (Point α)) : Places α :=
  (View.make scene r.options.snapshot).places (r.sweepOver scene before).scene

/-- The cloud that is drawn for a point when the points `before` it have been visited. -/
def cloudBehind (r : Relaxation α σ) (scene : Scene α) (before : List (Point α)) (p : Point α) :
    Except (Fault α) (Candidates α) :=
  (Candidates.seed scene.decimals p.position r.options.samples r.options.radius
    (r.sweepOver scene before).source).1

/-- The visit to a point when the points `before` it have been visited. -/
def visitBehind (r : Relaxation α σ) (scene : Scene α) (before : List (Point α)) (p : Point α) :
    Visit α :=
  (Visit.make r.options (View.make scene r.options.snapshot) (r.sweepOver scene before).scene p
    (r.sweepOver scene before).source).1

/-- The rule of `p` interrupts a pass: the points `before` it are visited, a cloud is drawn for it,
and the rule fails at the cell at place `i` of that cloud. -/
structure InterruptedAt (r : Relaxation α σ) (scene : Scene α) (before : List (Point α))
    (p : Point α) (after : List (Point α)) (cloud : Candidates α) (i : ℕ) (f : Fault α) :
    Prop where
  unstable : ¬ scene.allStable
  due : scene.points.filter r.options.visits = before ++ p :: after
  completed : (r.sweepOver scene before).fault = none
  drawn : r.cloudBehind scene before p = .ok cloud
  fails : p.rule.FailsAt scene.decimals (r.placesBehind scene before) cloud.cells i f

variable {r : Relaxation α σ} {scene : Scene α} {before after : List (Point α)} {p : Point α}
  {cloud : Candidates α} {i : ℕ} {f : Fault α}

lemma decimals_sweepOver (r : Relaxation α σ) (scene : Scene α) (ps : List (Point α)) :
    (r.sweepOver scene ps).scene.decimals = scene.decimals :=
  decimals_sweep

/-! ## Passes that end with a fault -/

/-- A pass ends with the first visit that meets a fault, and it is not counted. -/
lemma pass_of_fault (h : ¬ scene.allStable)
    (hdue : scene.points.filter r.options.visits = before ++ p :: after)
    (hbefore : (r.sweepOver scene before).fault = none)
    (hp : (r.visitBehind scene before p).fault? = some f) :
    (r.pass scene).report = .error f ∧ (r.pass scene).relaxation.passes = r.passes ∧
      (r.pass scene).scene =
        (r.sweepOver scene before).scene.replace (r.visitBehind scene before p).point ∧
      (r.pass scene).visits =
        (r.sweepOver scene before).visits ++ [r.visitBehind scene before p] := by
  have hsweep := sweep_of_fault hbefore hp after
  rw [← hdue] at hsweep
  have hfault : (r.sweepDue scene).fault = some f := congrArg Sweep.fault hsweep
  rw [pass_eq_of_some h hfault]
  exact ⟨rfl, rfl, congrArg Sweep.scene hsweep, congrArg Sweep.visits hsweep⟩

/-- A pass that ends with a fault ends with the visit to one of the points that are due. -/
lemma exists_of_report_error (hr : (r.pass scene).report = .error f) :
    ¬ scene.allStable ∧ ∃ before p after,
      scene.points.filter r.options.visits = before ++ p :: after ∧
      (r.sweepOver scene before).fault = none ∧
      (r.visitBehind scene before p).fault? = some f := by
  have h : ¬ scene.allStable := by
    intro h
    rw [pass_idle h] at hr
    cases hr
  refine ⟨h, ?_⟩
  rcases hf : (r.sweepDue scene).fault with _ | g
  · rw [pass_eq_of_none h hf] at hr
    cases hr
  · rw [pass_eq_of_some h hf, Except.error.injEq] at hr
    subst hr
    exact exists_of_fault_sweep hf

/-- A visit that ends with a fault could not draw a cloud, or its rule failed at a cell of the
cloud, or its point could not be settled. -/
lemma visitBehind_cases [WordScalar α] (hp : (r.visitBehind scene before p).fault? = some f) :
    (∃ cloud i, r.cloudBehind scene before p = .ok cloud ∧
      p.rule.FailsAt scene.decimals (r.placesBehind scene before) cloud.cells i f) ∨
    (r.visitBehind scene before p).progress = .unseeded f ∨
    ∃ scored q, (r.visitBehind scene before p).progress = .unsettled f scored q := by
  unfold visitBehind at hp ⊢
  unfold cloudBehind placesBehind
  rw [← decimals_sweepOver r scene before]
  let prior := r.sweepOver scene before
  rcases hseed : (Candidates.seed prior.scene.decimals p.position r.options.samples
      r.options.radius prior.source).1 with g | cloud
  · rw [Visit.make_of_seed_error hseed] at hp ⊢
    exact .inr (.inl (congrArg Progress.unseeded (Option.some.inj hp)))
  · rw [Visit.make_of_seed_ok hseed] at hp ⊢
    rcases Visit.ofCloud_cases (View.make scene r.options.snapshot) prior.scene p cloud with
      ⟨g, hg, hv⟩ | ⟨-, g, q, -, hv⟩ | ⟨-, moved, q, -, hv⟩
    · rw [hv] at hp
      obtain rfl : g = f := Option.some.inj hp
      obtain ⟨i, hi⟩ := Candidates.exists_failsAt (Candidates.exists_place_of_seed hseed) hg
      exact .inl ⟨cloud, i, rfl, hi⟩
    · rw [hv] at hp ⊢
      obtain rfl : g = f := Option.some.inj hp
      exact .inr (.inr ⟨_, q, rfl⟩)
    · rw [hv] at hp
      exact absurd hp.symm (Option.some_ne_none f)

/-! ## Interrupted passes -/

/-- The visit that interrupts a pass leaves its point cut off. -/
lemma InterruptedAt.visit (h : r.InterruptedAt scene before p after cloud i f) :
    (r.visitBehind scene before p).fault? = some f ∧
      p.CutOff scene.decimals (r.placesBehind scene before) cloud.cells i
        (r.visitBehind scene before p).point := by
  have hdrawn := h.drawn
  have hfails := h.fails
  unfold cloudBehind at hdrawn
  unfold placesBehind at hfails ⊢
  rw [← decimals_sweepOver r scene before] at hdrawn hfails ⊢
  obtain ⟨q, hv, hq⟩ := Visit.ofCloud_of_failsAt (Candidates.entries_of_around hdrawn) hfails
  have hvisit : r.visitBehind scene before p =
      ⟨(r.sweepOver scene before).scene, p, .unscored f q⟩ := by
    unfold visitBehind
    rw [Visit.make_of_seed_ok hdrawn]
    exact hv
  rw [hvisit]
  exact ⟨rfl, hq⟩

/-- What an interrupted pass leaves of the scene. -/
lemma InterruptedAt.scene_pass (h : r.InterruptedAt scene before p after cloud i f) :
    (∀ b ∈ before, (r.pass scene).scene.find? b.name =
      (r.sweepOver scene before).scene.find? b.name) ∧
    (r.pass scene).scene.find? p.name = some (r.visitBehind scene before p).point ∧
    (∀ q ∈ scene.points, q ∉ before → q ≠ p → (r.pass scene).scene.find? q.name = some q) := by
  obtain ⟨hfault, hcut⟩ := h.visit
  obtain ⟨-, -, hscene, -⟩ := pass_of_fault h.unstable h.due h.completed hfault
  -- the points that are due have different names
  have hdue : ∀ q ∈ before ++ p :: after, q ∈ scene.points :=
    fun q hq => List.mem_of_mem_filter (h.due ▸ hq)
  have hnd : ((before ++ p :: after).map Point.name).Nodup :=
    h.due ▸ scene.nodup_names_filter _
  have hbefore : ∀ b ∈ before, b ∈ scene.points :=
    fun b hb => hdue b (List.mem_append_left _ hb)
  have hp : p ∈ scene.points := hdue p (List.mem_append_right _ List.mem_cons_self)
  rw [List.map_append, List.map_cons, List.nodup_append] at hnd
  have hnames : (r.sweepOver scene before).scene.names = scene.names :=
    sweep_keeps Scene.names Scene.names_replace
  refine ⟨fun b hb => ?_, ?_, fun q hq hqb hqp => ?_⟩
  · rw [hscene, Scene.find?_replace, hcut.name, if_neg]
    exact hnd.2.2 b.name (List.mem_map_of_mem hb) p.name List.mem_cons_self
  · rw [hscene]
    exact Scene.find?_eq_some_iff.2
      ⟨Scene.mem_replace.2 (.inl ⟨rfl, by rw [hcut.name, hnames]; exact Scene.mem_names_of_mem hp⟩),
        hcut.name⟩
  · have hname : ∀ q' ∈ scene.points, q.name = q'.name → q = q' :=
      fun q' hq' => Scene.eq_of_name_eq hq hq'
    rw [hscene, Scene.find?_replace, hcut.name, if_neg fun heq => hqp (hname p hp heq)]
    refine find?_of_not_mem (Visit.point_name_make _ _) hnd.1
      (fun b hb => Scene.mem_names_of_mem (hbefore b hb)) hq fun hmem => ?_
    obtain ⟨b, hb, heq⟩ := List.mem_map.1 hmem
    exact hqb (hname b (hbefore b hb) heq.symm ▸ hb)

end Relaxation

/-! ## A stray point -/

namespace Exact

/-- Has no value west of the origin, and elsewhere looks for a point that there is not. -/
def toNowhere : Rule Exact := fun v places =>
  if v.x < 0.0 then .error .divisionByZero
  else do
    let nowhere ← places "nowhere"
    return -Vec.normSq (Vec.between nowhere v)

/-- A point on its way to the origin, one whose rule fails there, and one behind it. -/
def strayed : Scene Exact where
  decimals := 0
  points := [.unvisited "A" toOrigin startingPoint, .unvisited "B" toNowhere startingPoint,
    .unvisited "C" toLeader startingPoint]
  lines := []
  segments := []
  polygons := []
  measures := []
  nodup := by decide

/-- The second point is degenerate at its own cell, and its rule fails at the next. -/
lemma strayed_interruptedAt :
    (Relaxation.start pursuitOptions pursuitDraws).InterruptedAt strayed
      [.unvisited "A" toOrigin startingPoint] (.unvisited "B" toNowhere startingPoint)
      [.unvisited "C" toLeader startingPoint] (.distinct [⟨-1, 0⟩, ⟨0, 0⟩]) 1
      (.unknownPoint "nowhere") where
  unstable := by decide
  due := rfl
  completed := by
    unfold Relaxation.sweepOver
    rw [Visit.make_eq_listed]
    decide +kernel
  drawn := by
    unfold Relaxation.cloudBehind Relaxation.sweepOver Candidates.seed
    rw [Visit.make_eq_listed]
    simp only [Candidates.around_eq_distinct]
    with_unfolding_all rfl
  fails := by
    have hcells : (Candidates.distinct [⟨-1, 0⟩, ⟨0, 0⟩] : Candidates Exact).cells =
        [⟨-1, 0⟩, ⟨0, 0⟩] := by
      rw [Candidates.cells_distinct]
      decide
    rw [hcells]
    refine ⟨fun c hc => ⟨Scalar.lowest, ?_⟩, ⟨0, 0⟩, ⟨(0 : ℚ), (0 : ℚ)⟩, rfl, ?_, ?_, by decide⟩
    · obtain rfl : c = ⟨-1, 0⟩ := by simpa using hc
      unfold Rule.ScoresAt
      rw [if_pos (by decide +kernel)]
    · with_unfolding_all rfl
    · have hnames : "nowhere" ∉ ((Relaxation.start pursuitOptions pursuitDraws).sweepOver strayed
          [.unvisited "A" toOrigin startingPoint]).scene.names := by
        unfold Relaxation.sweepOver
        rw [sweep_keeps Scene.names Scene.names_replace]
        decide
      refine (if_neg (by decide +kernel)).trans ?_
      exact congrArg (· >>= _) (Scene.places_of_not_mem hnames)

end Exact

/-! ## What an interrupted pass leaves -/

/-- A pass that a rule interrupts is not counted. The points before the interruption are as a sweep
over them leaves them. The interrupted point keeps its position, its score and its flag; its
candidates are the cells that were drawn for it, scored up to the one at which the rule failed, and
its degenerate ones among these are counted. All other points are as they were. Whenever a pass ends
with a fault it is so interrupted, unless no cloud could be drawn for a point or a point with all
its candidates scored could not be settled. An evaluation by a rule that does not fail keeps the
cells, scores each of them and counts the degenerate ones; and a position stands for each cell of a
fresh cloud. -/
theorem interrupted_pass [WordScalar α] (r : Relaxation α σ) (scene : Scene α) :
    (∀ before p after cloud i f, r.InterruptedAt scene before p after cloud i f →
      let prior := r.sweepOver scene before
      let pass := r.pass scene
      pass.report = .error f ∧ pass.relaxation.passes = r.passes ∧
      pass.scene.names = scene.names ∧
      (∀ b ∈ before, pass.scene.find? b.name = prior.scene.find? b.name) ∧
      (∃ q, pass.scene.find? p.name = some q ∧
        p.CutOff scene.decimals (r.placesBehind scene before) cloud.cells i q) ∧
      (∀ q ∈ scene.points, q ∉ before → q ≠ p → pass.scene.find? q.name = some q)) ∧
    (∀ f, (r.pass scene).report = .error f →
      (∃ before p after cloud i, r.InterruptedAt scene before p after cloud i f) ∨
      ∃ v ∈ (r.pass scene).visits, v.progress = .unseeded f ∨
        ∃ scored q, v.progress = .unsettled f scored q) ∧
    (∀ (p : Point α) (places : Places α),
      (∀ c ∈ p.candidates.cells, ∃ v : Vec α, Grid.place scene.decimals c = .ok v) →
      p.rule.Contained places →
      let e := p.evaluate scene.decimals places
      e.2 = none ∧ e.1.candidates.cells = p.candidates.cells ∧
      (∀ d ∈ e.1.candidates.entries,
        ∃ s, d.2 = some s ∧ p.rule.ScoresAt scene.decimals places d.1 s) ∧
      e.1.degenerate = (p.candidates.cells.countP (p.rule.degenerateAt scene.decimals places) : ℕ)) ∧
    (∀ before p cloud, r.cloudBehind scene before p = .ok cloud →
      ∀ c ∈ cloud.cells, ∃ v : Vec α, Grid.place scene.decimals c = .ok v) := by
  refine ⟨?_, ?_, ?_, ?_⟩
  · intro before p after cloud i f h prior pass
    obtain ⟨hfault, hcut⟩ := h.visit
    obtain ⟨hreport, hpasses, -, -⟩ :=
      Relaxation.pass_of_fault h.unstable h.due h.completed hfault
    obtain ⟨hbefore, hp, hothers⟩ := h.scene_pass
    exact ⟨hreport, hpasses, Relaxation.names_pass, hbefore, ⟨_, hp, hcut⟩, hothers⟩
  · intro f hr
    obtain ⟨h, before, p, after, hdue, hbefore, hp⟩ := Relaxation.exists_of_report_error hr
    rcases Relaxation.visitBehind_cases hp with ⟨cloud, i, hdrawn, hfails⟩ | hunfinished
    · exact .inl ⟨before, p, after, cloud, i, h, hdue, hbefore, hdrawn, hfails⟩
    · obtain ⟨-, -, -, hvisits⟩ := Relaxation.pass_of_fault h hdue hbefore hp
      exact .inr ⟨r.visitBehind scene before p, by simp [hvisits], hunfinished⟩
  · intro p places hplace hrule e
    have hscores : ∀ c ∈ p.candidates.cells, ∃ s, p.rule.ScoresAt scene.decimals places c s :=
      fun c hc => Verdict.exists_ofCell_iff.1
        (Verdict.exists_ofCell_of_contained hrule (hplace c hc))
    obtain ⟨hfault, hcells, hscored, hdegenerate⟩ := Candidates.evaluate_of_scored hscores
    exact ⟨hfault, hcells, hscored, congrArg Nat.cast hdegenerate⟩
  · exact fun before p cloud hdrawn => Candidates.exists_place_of_seed hdrawn

/-- The rule of the second of three points fails at its second candidate, behind a degenerate one.
The rule of the first fails at neither of these candidates. -/
theorem interrupted_pass_strayed :
    let pass := (Relaxation.start Exact.pursuitOptions Exact.pursuitDraws).pass Exact.strayed
    let first : Point Exact :=
      { Point.unvisited "A" Exact.toOrigin Exact.startingPoint with
        candidates := .distinct [⟨-1, 0⟩, ⟨0, 0⟩] }
    pass.report = .error (.unknownPoint "nowhere") ∧ pass.relaxation.passes = 0 ∧
      (∃ q, pass.scene.find? "B" = some q ∧ q.position = Exact.startingPoint ∧
        q.candidates.cells = [⟨-1, 0⟩, ⟨0, 0⟩] ∧ q.degenerate = 1) ∧
      (first.evaluate Exact.strayed.decimals Exact.strayed.places).2 = none := by
  intro pass first
  obtain ⟨hinterrupted, -, hevaluate, hplace⟩ :=
    interrupted_pass (.start Exact.pursuitOptions Exact.pursuitDraws) Exact.strayed
  obtain ⟨hreport, hpasses, -, -, ⟨q, hfind, hq⟩, -⟩ :=
    hinterrupted _ _ _ _ _ _ Exact.strayed_interruptedAt
  refine ⟨hreport, hpasses, ⟨q, hfind, hq.position, ?_, ?_⟩, ?_⟩
  · rw [hq.cells, Candidates.cells_distinct]
    decide
  · rw [hq.degenerate, Candidates.cells_distinct]
    decide +kernel
  · have hcontained : first.rule.Contained Exact.strayed.places := fun v f hf => by cases hf
    have hplaces := hplace _ _ _ Exact.strayed_interruptedAt.drawn
    exact (hevaluate first Exact.strayed.places hplaces hcontained).1

end PointRelaxation
