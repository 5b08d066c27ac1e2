import Mathlib.Data.List.Perm.Subperm
import Mathlib.Logic.Function.Basic
import PointRelaxation.Proofs.Exact
import PointRelaxation.Proofs.Pass

/-!
# Passes against a frozen view

A visit reads the frozen view, its own point and nothing else, and writes its own point. So the
visits of a pass against a frozen view can be made in any order, and the rule of one point is of no
concern to the others.

* `snapshotSweep`: a sweep against a view frozen at its beginning, with a cloud for each point.
* `sweep_frozen`: its visits could all have been made at the beginning.
* `snapshot_order_independent`: its outcome does not depend on the order of the points.
-/

namespace PointRelaxation

variable {α : Type}

/-! ## Reports up to order -/

/-- What a report looks at in a visit: the point as it was left, and whether it moved. -/
def Visit.effect (v : Visit α) : Point α × Bool := (v.point, v.moved)

namespace PassReport

/-- Reports that say the same of each name, in one order or another. -/
structure SameUpToOrder (a b : PassReport) : Prop where
  index : a.index = b.index
  idle : a.idle = b.idle
  evaluated : a.evaluated.Perm b.evaluated
  moved : a.moved.Perm b.moved
  unstable : a.unstable.Perm b.unstable
  degenerate : a.degenerate.Perm b.degenerate

/-- A report but for what it says of one name. -/
def without (name : String) (r : PassReport) : PassReport :=
  { r with
    evaluated := r.evaluated.filter (· ≠ name)
    moved := r.moved.filter (· ≠ name)
    unstable := r.unstable.filter (· ≠ name)
    degenerate := r.degenerate.filter (·.1 ≠ name) }

/-- The report of visits by their effects. -/
def ofEffects (index : ℕ) (es : List (Point α × Bool)) : PassReport where
  index := index
  idle := false
  evaluated := es.map (·.1.name)
  moved := (es.filter (·.2)).map (·.1.name)
  unstable := (es.filter (!·.1.stable)).map (·.1.name)
  degenerate := (es.filter (0 < ·.1.degenerate)).map fun e => (e.1.name, e.1.degenerate.toNat)

lemma ofVisits_eq (index : ℕ) (vs : List (Visit α)) :
    ofVisits index vs = ofEffects index (vs.map Visit.effect) := by
  simp only [ofVisits, ofEffects, List.filter_map, List.map_map]
  rfl

lemma sameUpToOrder_ofEffects (index : ℕ) {es fs : List (Point α × Bool)} (h : es.Perm fs) :
    (ofEffects index es).SameUpToOrder (ofEffects index fs) :=
  ⟨rfl, rfl, h.map _, (h.filter _).map _, (h.filter _).map _, (h.filter _).map _⟩

lemma without_ofEffects (index : ℕ) (name : String) (es : List (Point α × Bool)) :
    (ofEffects index es).without name = ofEffects index (es.filter (·.1.name ≠ name)) := by
  simp [without, ofEffects, List.filter_map, List.filter_filter, Function.comp_def, Bool.and_comm]

end PassReport

/-! ## Replacements in any order -/

/-- Points of different names can be replaced in any order. -/
lemma foldl_replace_perm {f : Point α → Point α} (hf : ∀ p, (f p).name = p.name)
    {ps qs : List (Point α)} (hnd : (ps.map Point.name).Nodup) (hperm : ps.Perm qs)
    (scene : Scene α) :
    ps.foldl (fun scene p => scene.replace (f p)) scene =
      qs.foldl (fun scene p => scene.replace (f p)) scene := by
  refine hperm.foldl_eq' (fun p hp q hq scene => ?_) scene
  by_cases h : p.name = q.name
  · rw [List.inj_on_of_nodup_map hnd hp hq h]
  · rw [Scene.replace_comm]
    rwa [hf, hf]

/-! ## Another rule for one point -/

/-- Two maps of a list, looked at where they agree. -/
lemma filter_map_congr {β γ : Type} {f g : β → γ} {keep : γ → Bool} {l : List β}
    (hkeep : ∀ b ∈ l, keep (f b) = keep (g b)) (h : ∀ b ∈ l, keep (g b) → f b = g b) :
    (l.map f).filter keep = (l.map g).filter keep := by
  rw [List.filter_map, List.filter_map]
  have hfilter : l.filter (keep ∘ f) = l.filter (keep ∘ g) := List.filter_congr hkeep
  rw [hfilter]
  exact List.map_congr_left fun b hb => h b (List.mem_of_mem_filter hb) (List.mem_filter.1 hb).2

/-- The point with another rule, if it has the given name. -/
def Point.withRule (name : String) (rule : Rule α) (p : Point α) : Point α :=
  if p.name = name then { p with rule } else p

@[simp] lemma Point.name_withRule (name : String) (rule : Rule α) (p : Point α) :
    (p.withRule name rule).name = p.name := by
  unfold withRule
  split <;> rfl

@[simp] lemma Point.position_withRule (name : String) (rule : Rule α) (p : Point α) :
    (p.withRule name rule).position = p.position := by
  unfold withRule
  split <;> rfl

lemma Point.withRule_of_ne {name : String} {p : Point α} (h : p.name ≠ name) (rule : Rule α) :
    p.withRule name rule = p :=
  if_neg h

/-- The scene with another rule for one of its points. -/
def Scene.withRule (name : String) (rule : Rule α) (scene : Scene α) : Scene α :=
  scene.mapPoints (Point.withRule name rule) (Point.name_withRule name rule)

lemma Scene.positions_withRule (name : String) (rule : Rule α) (scene : Scene α) :
    (scene.withRule name rule).positions = scene.positions := by
  simp [positions, withRule, mapPoints]

lemma Scene.find?_withRule {name other : String} (h : other ≠ name) (rule : Rule α)
    (scene : Scene α) : (scene.withRule name rule).find? other = scene.find? other := by
  unfold withRule
  rw [find?_mapPoints]
  rcases hp : scene.find? other with _ | p
  · rfl
  · obtain ⟨-, rfl⟩ := find?_eq_some_iff.1 hp
    exact congrArg some (Point.withRule_of_ne h rule)

/-- Replacements that differ in points of one name leave the same under all other names. -/
lemma find?_foldl_replace_congr {name : String} {f g : Point α → Point α} {ps : List (Point α)}
    (hname : ∀ p ∈ ps, (f p).name = (g p).name)
    (h : ∀ p ∈ ps, (g p).name ≠ name → f p = g p) {scene scene' : Scene α}
    (hs : ∀ n ≠ name, scene.find? n = scene'.find? n) :
    ∀ n ≠ name, (ps.foldl (fun scene p => scene.replace (f p)) scene).find? n =
      (ps.foldl (fun scene p => scene.replace (g p)) scene').find? n := by
  induction ps generalizing scene scene' with
  | nil => exact hs
  | cons p ps ih =>
    rw [List.forall_mem_cons] at hname h
    refine ih hname.2 h.2 fun n hn => ?_
    rw [Scene.find?_replace, Scene.find?_replace, hname.1, hs n hn]
    by_cases hp : n = (g p).name
    · rw [if_pos hp, if_pos hp, h.1 (hp ▸ hn)]
    · rw [if_neg hp, if_neg hp]

/-! ## Sweeps with given clouds -/

variable [Scalar α]

/-- Visits a point with the cloud of its name. -/
def Visit.ofClouds (view : View α) (clouds : String → Candidates α) (scene : Scene α)
    (p : Point α) (_ : Unit) : Visit α × Unit :=
  (ofCloud view scene p (clouds p.name), ())

/-- Visits points one after the other against a view that was frozen beforehand. -/
def snapshotSweep (clouds : String → Candidates α) (ps : List (Point α)) (scene : Scene α) :
    Sweep α Unit :=
  sweep (Visit.ofClouds (View.make scene true) clouds) ps scene ()

/-- Against a frozen view a visit depends on the scene through its decimals only. -/
lemma Visit.ofCloud_frozen (positions : List (String × Vec α)) {scene scene' : Scene α}
    (hd : scene'.decimals = scene.decimals) (p : Point α) (m : Candidates α) :
    (ofCloud (.frozen positions) scene' p m).fault? =
        (ofCloud (.frozen positions) scene p m).fault? ∧
      (ofCloud (.frozen positions) scene' p m).effect =
        (ofCloud (.frozen positions) scene p m).effect := by
  have hplaces : (View.frozen positions).places scene' = (View.frozen positions).places scene := rfl
  unfold ofCloud
  rw [hd, hplaces]
  exact ⟨rfl, rfl⟩

/-- The visits of a sweep against a frozen view could all have been made at its beginning. -/
lemma sweep_frozen (positions : List (String × Vec α)) (clouds : String → Candidates α)
    (ps : List (Point α)) {scene scene' : Scene α} (hd : scene'.decimals = scene.decimals) :
    let s := sweep (Visit.ofClouds (.frozen positions) clouds) ps scene' ()
    let first := fun p : Point α => Visit.ofCloud (.frozen positions) scene p (clouds p.name)
    (s.fault = none ↔ ∀ p ∈ ps, (first p).fault? = none) ∧
      (s.fault = none →
        s.scene = ps.foldl (fun scene p => scene.replace (first p).point) scene' ∧
          s.visits.map Visit.effect = ps.map fun p => (first p).effect) := by
  intro s first
  induction ps generalizing scene' with
  | nil => simp [s, sweep]
  | cons p ps ih =>
    obtain ⟨hfault, heffect⟩ :
        (Visit.ofClouds (.frozen positions) clouds scene' p ()).1.fault? = (first p).fault? ∧
          (Visit.ofClouds (.frozen positions) clouds scene' p ()).1.effect = (first p).effect :=
      Visit.ofCloud_frozen positions hd p (clouds p.name)
    have hpoint : (Visit.ofClouds (.frozen positions) clouds scene' p ()).1.point =
        (first p).point := congrArg Prod.fst heffect
    -- the other visits read the same view, and their points are still as at the beginning
    obtain ⟨hiff, hrest⟩ := @ih (scene'.replace (first p).point) hd
    have hcons : s.fault = none ↔ (first p).fault? = none ∧
        (sweep (Visit.ofClouds (.frozen positions) clouds) ps (scene'.replace (first p).point)
          ()).fault = none := by
      rw [fault_sweep_cons, hfault, hpoint]
    constructor
    · rw [hcons, List.forall_mem_cons, hiff]
    · intro hs
      obtain ⟨hp, hps⟩ := hcons.1 hs
      obtain ⟨hscene, heffects⟩ := hrest hps
      simp only [s, sweep_cons_of_none (hfault.trans hp), hpoint, List.foldl_cons, List.map_cons,
        heffect]
      exact ⟨hscene, congrArg ((first p).effect :: ·) heffects⟩

/-- A completed sweep of fresh clouds is one with given clouds: those that were drawn. -/
lemma exists_clouds {σ : Type} [Draws σ α] {options : Options α} {view : View α}
    {ps : List (Point α)} {scene : Scene α} {s : σ} (hnd : (ps.map Point.name).Nodup)
    (hf : (sweep (Visit.make options view) ps scene s).fault = none) :
    ∃ clouds : String → Candidates α,
      (sweep (Visit.ofClouds view clouds) ps scene ()).fault = none ∧
      (sweep (Visit.ofClouds view clouds) ps scene ()).scene =
        (sweep (Visit.make options view) ps scene s).scene ∧
      (sweep (Visit.ofClouds view clouds) ps scene ()).visits =
        (sweep (Visit.make options view) ps scene s).visits := by
  induction ps generalizing scene s with
  | nil => exact ⟨fun _ => .empty, rfl, rfl, rfl⟩
  | cons p ps ih =>
    obtain ⟨h, hrest⟩ := fault_sweep_cons.1 hf
    rw [List.map_cons, List.nodup_cons] at hnd
    obtain ⟨m, hm⟩ : ∃ m, (Visit.make options view scene p s).1 = Visit.ofCloud view scene p m := by
      rcases Visit.make_eq options view scene p s with ⟨f, hmake⟩ | hmake
      · rw [hmake] at h
        exact absurd h (Option.some_ne_none f)
      · exact hmake
    obtain ⟨clouds, hfault, hscene, hvisits⟩ := ih hnd.2 hrest
    let clouds' : String → Candidates α := Function.update clouds p.name m
    have hfirst : (Visit.ofClouds view clouds' scene p ()).1 =
        (Visit.make options view scene p s).1 := by
      rw [hm]
      exact congrArg (Visit.ofCloud view scene p) (Function.update_self p.name m clouds)
    -- the other points have other names, so their clouds are as before
    have hothers : ∀ scene, sweep (Visit.ofClouds view clouds') ps scene () =
        sweep (Visit.ofClouds view clouds) ps scene () := by
      intro scene
      refine sweep_congr fun q hq scene s => ?_
      have hne : q.name ≠ p.name := fun hqp => hnd.1 (hqp ▸ List.mem_map_of_mem hq)
      have hcloud : clouds' q.name = clouds q.name := Function.update_of_ne hne m clouds
      unfold Visit.ofClouds
      rw [hcloud]
    refine ⟨clouds', ?_⟩
    rw [sweep_cons_of_none h, sweep_cons_of_none (hfirst ▸ h), hfirst]
    simp only [hothers]
    exact ⟨hfault, hscene, congrArg (_ :: ·) hvisits⟩

/-! ## The visits of a snapshot sweep -/

/-- The visit to a point against a view frozen just before it. -/
def snapshotVisit (clouds : String → Candidates α) (scene : Scene α) (p : Point α) : Visit α :=
  Visit.ofCloud (View.make scene true) scene p (clouds p.name)

lemma snapshotSweep_spec (clouds : String → Candidates α) (ps : List (Point α))
    (scene : Scene α) :
    ((snapshotSweep clouds ps scene).fault = none ↔
        ∀ p ∈ ps, (snapshotVisit clouds scene p).fault? = none) ∧
      ((snapshotSweep clouds ps scene).fault = none →
        (snapshotSweep clouds ps scene).scene =
            ps.foldl (fun s p => s.replace (snapshotVisit clouds scene p).point) scene ∧
          (snapshotSweep clouds ps scene).visits.map Visit.effect =
            ps.map fun p => (snapshotVisit clouds scene p).effect) :=
  sweep_frozen _ clouds ps rfl

variable {clouds : String → Candidates α} {ps qs : List (Point α)} {scene : Scene α}

lemma fault?_snapshotVisit [OrderedScalar α] {p : Point α} :
    (snapshotVisit clouds scene p).fault? = none ↔
      p.Fits scene.decimals scene.places (clouds p.name) := by
  unfold snapshotVisit
  rw [Visit.fault?_ofCloud, View.places_make]

/-- A sweep that is completed in one order is completed in any other, with the same outcome. -/
lemma snapshotSweep_perm (hnd : (ps.map Point.name).Nodup) (hperm : ps.Perm qs)
    (hf : (snapshotSweep clouds ps scene).fault = none) :
    (snapshotSweep clouds qs scene).fault = none ∧
      (snapshotSweep clouds ps scene).scene = (snapshotSweep clouds qs scene).scene ∧
      ∀ index, (PassReport.ofVisits index (snapshotSweep clouds ps scene).visits).SameUpToOrder
        (.ofVisits index (snapshotSweep clouds qs scene).visits) := by
  obtain ⟨hiff, hps⟩ := snapshotSweep_spec clouds ps scene
  obtain ⟨hiff', hqs⟩ := snapshotSweep_spec clouds qs scene
  have hf' : (snapshotSweep clouds qs scene).fault = none :=
    hiff'.2 fun p hp => hiff.1 hf p (hperm.mem_iff.2 hp)
  obtain ⟨hscene, heffects⟩ := hps hf
  obtain ⟨hscene', heffects'⟩ := hqs hf'
  refine ⟨hf', ?_, fun index => ?_⟩
  · rw [hscene, hscene']
    exact foldl_replace_perm (fun p => Visit.point_name_ofCloud _ _ _ _) hnd hperm scene
  · rw [PassReport.ofVisits_eq, PassReport.ofVisits_eq, heffects, heffects']
    exact PassReport.sameUpToOrder_ofEffects index (hperm.map _)

/-- The visit to a point is of no concern to the rules of the others. -/
lemma effect_snapshotVisit_withRule {name : String} {p : Point α} (h : p.name ≠ name)
    (rule : Rule α) :
    (snapshotVisit clouds (scene.withRule name rule) (p.withRule name rule)).effect =
      (snapshotVisit clouds scene p).effect := by
  have hview : View.make (scene.withRule name rule) true = View.make scene true :=
    congrArg View.frozen (Scene.positions_withRule name rule scene)
  unfold snapshotVisit
  rw [Point.withRule_of_ne h, hview]
  exact (Visit.ofCloud_frozen _ rfl p (clouds p.name)).2

/-- Another rule for one point leaves what the sweep makes of the others. -/
lemma snapshotSweep_withRule [OrderedScalar α] {name : String} {rule : Rule α}
    (hf : (snapshotSweep clouds ps scene).fault = none)
    (hfits : ∀ p ∈ ps, p.name = name →
      { p with rule }.Fits scene.decimals scene.places (clouds name)) :
    let c := snapshotSweep clouds (ps.map (Point.withRule name rule)) (scene.withRule name rule)
    c.fault = none ∧
      (∀ other ≠ name, c.scene.find? other = (snapshotSweep clouds ps scene).scene.find? other) ∧
      ∀ index, (PassReport.ofVisits index c.visits).without name =
        (PassReport.ofVisits index (snapshotSweep clouds ps scene).visits).without name := by
  intro c
  obtain ⟨hiff, hspec⟩ := snapshotSweep_spec clouds ps scene
  obtain ⟨hiff', hspec'⟩ := snapshotSweep_spec clouds (ps.map (Point.withRule name rule))
    (scene.withRule name rule)
  have hplaces : (scene.withRule name rule).places = scene.places :=
    Scene.places_eq_of_positions (Scene.positions_withRule name rule scene)
  have hc : c.fault = none := by
    refine hiff'.2 fun q hq => ?_
    obtain ⟨p, hp, rfl⟩ := List.mem_map.1 hq
    rw [fault?_snapshotVisit, hplaces, Point.name_withRule]
    by_cases h : p.name = name
    · rw [h, Point.withRule, if_pos h]
      exact hfits p hp h
    · rw [Point.withRule_of_ne h]
      exact fault?_snapshotVisit.1 (hiff.1 hf p hp)
  obtain ⟨hscene, heffects⟩ := hspec hf
  obtain ⟨hscene', heffects'⟩ := hspec' hc
  -- the two visits to a point write the same unless it is the one whose rule was replaced
  let F : Point α → Point α × Bool := fun p =>
    (snapshotVisit clouds (scene.withRule name rule) (p.withRule name rule)).effect
  let G : Point α → Point α × Bool := fun p => (snapshotVisit clouds scene p).effect
  have hnameF : ∀ p, (F p).1.name = p.name := fun p =>
    (Visit.point_name_ofCloud _ _ _ _).trans (Point.name_withRule name rule p)
  have hnameG : ∀ p, (G p).1.name = p.name := fun p => Visit.point_name_ofCloud _ _ _ _
  have hFG : ∀ p, (G p).1.name ≠ name → F p = G p := fun p hp =>
    effect_snapshotVisit_withRule (hnameG p ▸ hp) rule
  refine ⟨hc, ?_, fun index => ?_⟩
  · rw [hscene, hscene', List.foldl_map]
    exact find?_foldl_replace_congr (fun p _ => (hnameF p).trans (hnameG p).symm)
      (fun p _ hp => congrArg Prod.fst (hFG p hp))
      (fun other hother => Scene.find?_withRule hother rule scene)
  · rw [PassReport.ofVisits_eq, PassReport.ofVisits_eq, PassReport.without_ofEffects,
      PassReport.without_ofEffects, heffects, heffects', List.map_map]
    refine congrArg (PassReport.ofEffects index) (filter_map_congr (f := F) (g := G) ?_ ?_)
    · intro p _
      rw [hnameF, hnameG]
    · intro p _ hp
      exact hFG p (by simpa using hp)

/-! ## What a pass against a frozen view does -/

/-- The outcome of a pass against a frozen view does not depend on the order in which the points are
visited. With a cloud for each point, the pass is completed exactly if every visited point can be
settled from its cloud where the points stand at its beginning. In any other order it is then
completed too, and leaves the same scene and the same report up to order. Another rule for one of
the points, if it can be settled with that, changes nothing for the others. And a completed pass of
a relaxation that takes such views is one of these, with the clouds that were drawn. -/
theorem snapshot_order_independent [OrderedScalar α] {σ : Type} [Draws σ α]
    (clouds : String → Candidates α) (scene : Scene α) {ps qs : List (Point α)}
    (hps : ps.Subperm scene.points) (hperm : ps.Perm qs) :
    let a := snapshotSweep clouds ps scene
    let b := snapshotSweep clouds qs scene
    (a.fault = none ↔ ∀ p ∈ ps, p.Fits scene.decimals scene.places (clouds p.name)) ∧
    (a.fault = none ↔ b.fault = none) ∧
    (a.fault = none → a.scene = b.scene ∧
      ∀ index, (PassReport.ofVisits index a.visits).SameUpToOrder (.ofVisits index b.visits)) ∧
    (a.fault = none → ∀ (name : String) (rule : Rule α),
      (∀ p ∈ ps, p.name = name →
        { p with rule }.Fits scene.decimals scene.places (clouds name)) →
      let c := snapshotSweep clouds (ps.map (Point.withRule name rule)) (scene.withRule name rule)
      c.fault = none ∧ (∀ other ≠ name, c.scene.find? other = a.scene.find? other) ∧
        ∀ index, (PassReport.ofVisits index c.visits).without name =
          (PassReport.ofVisits index a.visits).without name) ∧
    (∀ (r : Relaxation α σ) (report : PassReport), r.options.snapshot → ¬ scene.allStable →
      (r.pass scene).report = .ok report →
      ∃ drawn : String → Candidates α,
        let s := snapshotSweep drawn (scene.points.filter r.options.visits) scene
        s.fault = none ∧ (r.pass scene).scene = s.scene ∧
          report = .ofVisits r.passes s.visits) := by
  intro a b
  have hnd : (ps.map Point.name).Nodup := by
    obtain ⟨l, hl, hsub⟩ := hps
    exact (hl.map Point.name).nodup_iff.1 (scene.nodup.sublist (hsub.map Point.name))
  have hnd' : (qs.map Point.name).Nodup := (hperm.map Point.name).nodup_iff.1 hnd
  refine ⟨?_, ?_, ?_, ?_, ?_⟩
  · rw [(snapshotSweep_spec clouds ps scene).1]
    exact forall₂_congr fun p _ => fault?_snapshotVisit
  · exact ⟨fun ha => (snapshotSweep_perm hnd hperm ha).1,
      fun hb => (snapshotSweep_perm hnd' hperm.symm hb).1⟩
  · exact fun ha => (snapshotSweep_perm hnd hperm ha).2
  · exact fun ha name rule hfits => snapshotSweep_withRule ha hfits
  · intro r report hsnapshot h hr
    obtain ⟨hfault, hscene, hreport⟩ := Relaxation.pass_eq_ok h hr
    have hdue : ((scene.points.filter r.options.visits).map Point.name).Nodup :=
      scene.nodup.sublist (List.filter_sublist.map Point.name)
    obtain ⟨drawn, hdrawn, hscene', hvisits⟩ := exists_clouds hdue hfault
    have hview : View.make scene true = View.make scene r.options.snapshot :=
      congrArg (View.make scene) hsnapshot.symm
    refine ⟨drawn, ?_⟩
    unfold snapshotSweep
    rw [hview]
    exact ⟨hdrawn, hscene.trans hscene'.symm, hreport.trans (congrArg _ hvisits.symm)⟩

/-- The pursuit against a frozen view can begin with either of its points. -/
theorem snapshot_order_independent_pursuit :
    let clouds := fun _ : String => Candidates.distinct [⟨-1, 0⟩, ⟨0, 0⟩]
    let a := snapshotSweep clouds Exact.pursuit.points Exact.pursuit
    let b := snapshotSweep clouds Exact.pursuit.points.reverse Exact.pursuit
    a.fault = none ∧ b.fault = none ∧ a.scene = b.scene := by
  intro clouds a b
  have ha : a.fault = none := by decide +kernel
  have hperm : Exact.pursuit.points.Perm Exact.pursuit.points.reverse := (List.reverse_perm _).symm
  have h := snapshot_order_independent (σ := Script Exact) clouds Exact.pursuit
    (List.Subperm.refl _) hperm
  exact ⟨ha, h.2.1.1 ha, (h.2.2.1 ha).1⟩

end PointRelaxation
