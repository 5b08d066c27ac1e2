import PointRelaxation.Proofs.Visit
import PointRelaxation.Relaxation

/-!
# What a sweep does to a scene

A sweep writes the points it visits and no others.

* `mem_points_sweep`: behind a sweep stand the visited points as their visits left them, and the
  other points as they were.
* `positions_sweep_of_stable`: a sweep that leaves every visited point stable moves none of them,
  and each visit saw the positions that stand at the end.
-/

namespace PointRelaxation

variable {α σ : Type} {visit : Scene α → Point α → σ → Visit α × σ} {p : Point α}
  {ps : List (Point α)} {scene : Scene α} {s : σ}

/-! ## One visit more -/

lemma sweep_cons_of_none (h : (visit scene p s).1.fault? = none) :
    sweep visit (p :: ps) scene s =
      let rest := sweep visit ps (scene.replace (visit scene p s).1.point) (visit scene p s).2
      { rest with visits := (visit scene p s).1 :: rest.visits } := by
  rw [sweep]
  simp only [h]

lemma sweep_cons_of_some {f : Fault α} (h : (visit scene p s).1.fault? = some f) :
    sweep visit (p :: ps) scene s =
      ⟨scene.replace (visit scene p s).1.point, (visit scene p s).2, [(visit scene p s).1],
        some f⟩ := by
  rw [sweep]
  simp only [h]

/-- A sweep is completed exactly if its first visit is, and the sweep over the other points. -/
lemma fault_sweep_cons :
    (sweep visit (p :: ps) scene s).fault = none ↔
      (visit scene p s).1.fault? = none ∧
        (sweep visit ps (scene.replace (visit scene p s).1.point) (visit scene p s).2).fault =
          none := by
  rcases h : (visit scene p s).1.fault? with _ | f
  · simp [sweep_cons_of_none h]
  · simp [sweep_cons_of_some h]

/-- Only the visits to its points matter to a sweep. -/
lemma sweep_congr {visit' : Scene α → Point α → σ → Visit α × σ}
    (h : ∀ p ∈ ps, ∀ scene s, visit scene p s = visit' scene p s) :
    sweep visit ps scene s = sweep visit' ps scene s := by
  induction ps generalizing scene s with
  | nil => rfl
  | cons p ps ih =>
    obtain ⟨hp, hps⟩ := List.forall_mem_cons.1 h
    rw [sweep, sweep]
    simp only [hp, ih hps]

/-! ## Sweeps in parts -/

/-- A sweep over more points goes on from a completed one. -/
lemma sweep_append (hf : (sweep visit ps scene s).fault = none) (qs : List (Point α)) :
    sweep visit (ps ++ qs) scene s =
      let rest := sweep visit qs (sweep visit ps scene s).scene (sweep visit ps scene s).source
      { rest with visits := (sweep visit ps scene s).visits ++ rest.visits } := by
  induction ps generalizing scene s with
  | nil => rfl
  | cons p ps ih =>
    obtain ⟨h, hrest⟩ := fault_sweep_cons.1 hf
    rw [List.cons_append, sweep_cons_of_none h, sweep_cons_of_none h, ih hrest]
    rfl

/-- A sweep ends with the first visit that meets a fault. -/
lemma sweep_of_fault {f : Fault α} (hf : (sweep visit ps scene s).fault = none)
    (hp : (visit (sweep visit ps scene s).scene p (sweep visit ps scene s).source).1.fault? =
      some f) (qs : List (Point α)) :
    sweep visit (ps ++ p :: qs) scene s =
      let v := visit (sweep visit ps scene s).scene p (sweep visit ps scene s).source
      ⟨(sweep visit ps scene s).scene.replace v.1.point, v.2,
        (sweep visit ps scene s).visits ++ [v.1], some f⟩ := by
  rw [sweep_append hf, sweep_cons_of_some hp]

/-- A sweep over the first of its points makes the first of its visits. -/
lemma take_visits (n : ℕ) :
    (sweep visit ps scene s).visits.take n = (sweep visit (ps.take n) scene s).visits := by
  induction ps generalizing scene s n with
  | nil => simp [sweep]
  | cons p ps ih =>
    cases n with
    | zero => rfl
    | succ n =>
      rw [List.take_succ_cons]
      rcases h : (visit scene p s).1.fault? with _ | f
      · rw [sweep_cons_of_none h, sweep_cons_of_none h, List.take_succ_cons, ih]
      · rw [sweep_cons_of_some h, sweep_cons_of_some h, List.take_succ_cons, List.take_nil]

lemma visits_cons_ne_nil : (sweep visit (p :: ps) scene s).visits ≠ [] := by
  rcases h : (visit scene p s).1.fault? with _ | f
  · rw [sweep_cons_of_none h]
    exact List.cons_ne_nil _ _
  · rw [sweep_cons_of_some h]
    exact List.cons_ne_nil _ _

/-- The fault of a sweep is that of a visit to one of its points, before which all are completed. -/
lemma exists_of_fault_sweep {f : Fault α} (hf : (sweep visit ps scene s).fault = some f) :
    ∃ before p after, ps = before ++ p :: after ∧ (sweep visit before scene s).fault = none ∧
      (visit (sweep visit before scene s).scene p
        (sweep visit before scene s).source).1.fault? = some f := by
  induction ps generalizing scene s with
  | nil => simp [sweep] at hf
  | cons p ps ih =>
    rcases h : (visit scene p s).1.fault? with _ | g
    · rw [sweep_cons_of_none h] at hf
      obtain ⟨before, q, after, rfl, hbefore, hq⟩ := ih hf
      refine ⟨p :: before, q, after, rfl, ?_, ?_⟩
      · exact fault_sweep_cons.2 ⟨h, hbefore⟩
      · rw [sweep_cons_of_none h]
        exact hq
    · rw [sweep_cons_of_some h, Option.some.injEq] at hf
      exact ⟨[], p, ps, rfl, rfl, by rw [sweep, h, hf]⟩

/-! ## What stays -/

/-- What every replacement keeps, a sweep keeps. -/
lemma sweep_keeps {γ : Type} (f : Scene α → γ) (hf : ∀ scene p, f (scene.replace p) = f scene) :
    f (sweep visit ps scene s).scene = f scene := by
  induction ps generalizing scene s with
  | nil => rfl
  | cons p ps ih =>
    rcases h : (visit scene p s).1.fault? with _ | fault
    · rw [sweep_cons_of_none h]
      exact ih.trans (hf scene _)
    · rw [sweep_cons_of_some h]
      exact hf scene _

@[simp] lemma decimals_sweep : (sweep visit ps scene s).scene.decimals = scene.decimals :=
  sweep_keeps Scene.decimals Scene.decimals_replace

/-! ## Visits and the points they write -/

/-- Each visit of a sweep was made to one of its points, in a scene of the same names and
decimals. -/
lemma exists_of_mem_visits {v : Visit α} (hv : v ∈ (sweep visit ps scene s).visits) :
    ∃ scene' p s', p ∈ ps ∧ v = (visit scene' p s').1 ∧ scene'.decimals = scene.decimals := by
  induction ps generalizing scene s with
  | nil => simp [sweep] at hv
  | cons p ps ih =>
    rcases h : (visit scene p s).1.fault? with _ | f
    · rw [sweep_cons_of_none h] at hv
      rcases List.mem_cons.1 hv with rfl | hv
      · exact ⟨scene, p, s, List.mem_cons_self, rfl, rfl⟩
      · obtain ⟨scene', q, s', hq, hvq, hd⟩ := ih hv
        exact ⟨scene', q, s', List.mem_cons_of_mem p hq, hvq, hd⟩
    · rw [sweep_cons_of_some h] at hv
      obtain rfl := List.mem_singleton.1 hv
      exact ⟨scene, p, s, List.mem_cons_self, rfl, rfl⟩

/-- A sweep visits its points in order, and all of them if it is completed. -/
lemma found_sweep (hfound : ∀ scene p s, (visit scene p s).1.found = p) (ps : List (Point α))
    (scene : Scene α) (s : σ) :
    ∃ rest, ps = (sweep visit ps scene s).visits.map Visit.found ++ rest ∧
      ((sweep visit ps scene s).fault = none → rest = []) := by
  induction ps generalizing scene s with
  | nil => exact ⟨[], rfl, fun _ => rfl⟩
  | cons p ps ih =>
    rcases h : (visit scene p s).1.fault? with _ | f
    · obtain ⟨rest, hps, hrest⟩ :=
        ih (scene.replace (visit scene p s).1.point) (visit scene p s).2
      simp only [sweep_cons_of_none h, List.map_cons, hfound, List.cons_append]
      exact ⟨rest, congrArg (p :: ·) hps, hrest⟩
    · simp only [sweep_cons_of_some h, List.map_cons, hfound]
      exact ⟨ps, rfl, fun hnone => absurd hnone (Option.some_ne_none f)⟩

/-- No visit of a completed sweep met a fault. -/
lemma fault?_of_mem_visits (hf : (sweep visit ps scene s).fault = none) {v : Visit α}
    (hv : v ∈ (sweep visit ps scene s).visits) : v.fault? = none := by
  induction ps generalizing scene s with
  | nil => simp [sweep] at hv
  | cons p ps ih =>
    obtain ⟨h, hrest⟩ := fault_sweep_cons.1 hf
    rw [sweep_cons_of_none h] at hv
    rcases List.mem_cons.1 hv with rfl | hv
    · exact h
    · exact ih hrest hv

section

variable (hname : ∀ scene p s, (visit scene p s).1.point.name = p.name)
include hname

lemma name_mem_of_mem_visits {v : Visit α} (hv : v ∈ (sweep visit ps scene s).visits) :
    v.point.name ∈ ps.map Point.name := by
  obtain ⟨scene', p, s', hp, rfl, -⟩ := exists_of_mem_visits hv
  rw [hname]
  exact List.mem_map_of_mem hp

/-- A completed sweep visits all its points in order. -/
lemma map_name_visits (hf : (sweep visit ps scene s).fault = none) :
    (sweep visit ps scene s).visits.map (·.point.name) = ps.map Point.name := by
  induction ps generalizing scene s with
  | nil => rfl
  | cons p ps ih =>
    obtain ⟨h, hrest⟩ := fault_sweep_cons.1 hf
    rw [sweep_cons_of_none h, List.map_cons, List.map_cons, hname, ih hrest]

/-- Behind a sweep stand the visited points as their visits left them, and the other points as they
were. -/
lemma mem_points_sweep (hnd : (ps.map Point.name).Nodup) (hsub : ∀ p ∈ ps, p.name ∈ scene.names)
    {q : Point α} :
    q ∈ (sweep visit ps scene s).scene.points ↔
      (∃ v ∈ (sweep visit ps scene s).visits, v.point = q) ∨
        (q ∈ scene.points ∧ ∀ v ∈ (sweep visit ps scene s).visits, v.point.name ≠ q.name) := by
  induction ps generalizing scene s with
  | nil => simp [sweep]
  | cons p ps ih =>
    rw [List.map_cons, List.nodup_cons] at hnd
    have hp : (visit scene p s).1.point.name ∈ scene.names := by
      rw [hname]
      exact hsub p List.mem_cons_self
    cases h : (visit scene p s).1.fault? with
    | some f =>
      rw [sweep_cons_of_some h]
      simp only [Scene.mem_replace, hp, and_true, List.mem_singleton, exists_eq_left, forall_eq,
        ne_comm, eq_comm]
    | none =>
      -- the first point is not visited again, so what its visit wrote stays
      have hfirst : ∀ v ∈ (sweep visit ps (scene.replace (visit scene p s).1.point)
          (visit scene p s).2).visits, v.point.name ≠ (visit scene p s).1.point.name := by
        intro v hv heq
        rw [hname] at heq
        exact hnd.1 (heq ▸ name_mem_of_mem_visits hname hv)
      have hsub' : ∀ q ∈ ps, q.name ∈ (scene.replace (visit scene p s).1.point).names := by
        intro q hq
        rw [Scene.names_replace]
        exact hsub q (List.mem_cons_of_mem p hq)
      have hih := @ih _ (visit scene p s).2 hnd.2 hsub'
      rw [sweep_cons_of_none h]
      simp only [hih, Scene.mem_replace, hp, and_true, List.mem_cons, exists_eq_or_imp,
        forall_eq_or_imp]
      constructor
      · rintro (hv | ⟨rfl | ⟨hq, hne⟩, hall⟩)
        · exact .inl (.inr hv)
        · exact .inl (.inl rfl)
        · exact .inr ⟨hq, hne.symm, hall⟩
      · rintro ((rfl | hv) | ⟨hq, hne, hall⟩)
        · exact .inr ⟨.inl rfl, hfirst⟩
        · exact .inl hv
        · exact .inr ⟨.inr ⟨hq, hne.symm⟩, hall⟩

/-- Under the name of a visited point stands the point as its visit left it. -/
lemma find?_of_mem_visits (hnd : (ps.map Point.name).Nodup)
    (hsub : ∀ p ∈ ps, p.name ∈ scene.names) {v : Visit α}
    (hv : v ∈ (sweep visit ps scene s).visits) :
    (sweep visit ps scene s).scene.find? v.point.name = some v.point :=
  Scene.find?_eq_some_iff.2 ⟨(mem_points_sweep hname hnd hsub).2 (.inl ⟨v, hv, rfl⟩), rfl⟩

/-- Under any other name stands the point as it was. -/
lemma find?_of_not_mem (hnd : (ps.map Point.name).Nodup)
    (hsub : ∀ p ∈ ps, p.name ∈ scene.names) {q : Point α} (hq : q ∈ scene.points)
    (hne : q.name ∉ ps.map Point.name) :
    (sweep visit ps scene s).scene.find? q.name = some q := by
  refine Scene.find?_eq_some_iff.2 ⟨(mem_points_sweep hname hnd hsub).2 (.inr ⟨hq, ?_⟩), rfl⟩
  exact fun v hv heq => hne (heq ▸ name_mem_of_mem_visits hname hv)

end

/-! ## Sweeps that leave every point stable -/

variable [Scalar α] [OrderedScalar α] [Draws σ α] {options : Options α} {view : View α}

/-- If every visit of a sweep leaves its point stable, then the positions at the end are those at
the beginning, and each visit saw them. -/
lemma positions_sweep_of_stable (hnd : (ps.map Point.name).Nodup)
    (hsub : ∀ p ∈ ps, p ∈ scene.points)
    (hf : (sweep (Visit.make options view) ps scene s).fault = none)
    (hstable : ∀ v ∈ (sweep (Visit.make options view) ps scene s).visits, v.point.stable) :
    (sweep (Visit.make options view) ps scene s).scene.positions = scene.positions ∧
      ∀ v ∈ (sweep (Visit.make options view) ps scene s).visits, ∃ p ∈ ps,
        Outcome scene.decimals (view.places scene) p v.point v.moved := by
  induction ps generalizing scene s with
  | nil => simp [sweep]
  | cons p ps ih =>
    obtain ⟨h, hrest⟩ := fault_sweep_cons.1 hf
    have hout := Visit.outcome_make h
    rw [sweep_cons_of_none h] at hstable ⊢
    simp only [List.mem_cons, forall_eq_or_imp] at hstable ⊢
    have hp : p ∈ scene.points := hsub p List.mem_cons_self
    -- a stable point stands where it stood, so the next visit sees the same positions
    have hpos : (scene.replace (Visit.make options view scene p s).1.point).positions =
        scene.positions :=
      Scene.positions_replace hp hout.name (hout.stays hstable.1).2.1
    have hsub' := Scene.forall_mem_replace hout.name hnd hsub
    rw [List.map_cons, List.nodup_cons] at hnd
    obtain ⟨hscene, hvisits⟩ := ih hnd.2 hsub' hrest hstable.2
    refine ⟨hscene.trans hpos, ⟨p, .inl rfl, hout⟩, fun v hv => ?_⟩
    obtain ⟨q, hq, hvq⟩ := hvisits v hv
    rw [view.places_eq_of_positions hpos] at hvq
    exact ⟨q, .inr hq, hvq⟩

end PointRelaxation
