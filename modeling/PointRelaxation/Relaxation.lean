import PointRelaxation.Relaxation.Report

/-!
# Relaxations

A pass visits the points in the order in which they were registered, and each visit draws its own
cloud. A relaxation owns the source of the draws and counts its passes, so that consecutive passes
draw fresh clouds. Once every point is stable a pass does nothing.
-/

namespace PointRelaxation

/-! ## Sweeps -/

/-- A sweep over points: the scene and the source behind it, the visits it made, and the fault that
ended it early. -/
structure Sweep (α σ : Type) where
  scene : Scene α
  source : σ
  visits : List (Visit α)
  fault : Option (Fault α)

/-- Visits points one after the other. -/
def sweep {α σ : Type} (visit : Scene α → Point α → σ → Visit α × σ) :
    List (Point α) → Scene α → σ → Sweep α σ
  | [], scene, s => ⟨scene, s, [], none⟩
  | p :: ps, scene, s =>
    let (v, s) := visit scene p s
    let scene := scene.replace v.point
    match v.fault? with
    | some f => ⟨scene, s, [v], some f⟩
    | none =>
      let rest := sweep visit ps scene s
      { rest with visits := v :: rest.visits }

variable {α : Type} [Scalar α] {σ : Type} [Draws σ α]

/-! ## Passes -/

/-- Options, a source of draws, and the count of the passes that were completed. -/
structure Relaxation (α σ : Type) where
  options : Options α
  source : σ
  passes : Nat

/-- A pass: its index, the view that rules were given, the relaxation and the scene behind it, the
visits it made, and its report unless a fault ended it. -/
structure Pass (α σ : Type) where
  index : Nat
  view : View α
  relaxation : Relaxation α σ
  scene : Scene α
  visits : List (Visit α)
  report : Except (Fault α) PassReport

namespace Relaxation

def start (options : Options α) (source : σ) : Relaxation α σ := ⟨options, source, 0⟩

/-- The sweep of a pass, over the points that are due. -/
def sweepDue (r : Relaxation α σ) (scene : Scene α) : Sweep α σ :=
  let view := View.make scene r.options.snapshot
  sweep (Visit.make r.options view) (scene.points.filter r.options.visits) scene r.source

/-- Runs one pass. A pass that a fault ends is not counted. -/
def pass (r : Relaxation α σ) (scene : Scene α) : Pass α σ :=
  let view := View.make scene r.options.snapshot
  if scene.allStable then ⟨r.passes, view, r, scene, [], .ok (.ofIdle r.passes)⟩
  else
    let s := r.sweepDue scene
    match s.fault with
    | some f => ⟨r.passes, view, { r with source := s.source }, s.scene, s.visits, .error f⟩
    | none =>
      ⟨r.passes, view, { r with source := s.source, passes := r.passes + 1 }, s.scene, s.visits,
        .ok (.ofVisits r.passes s.visits)⟩

/-- A pass that finds something to do and is completed is counted. -/
theorem passes_pass {r : Relaxation α σ} {scene : Scene α} (h : ¬ scene.allStable)
    {report : PassReport} (hr : (r.pass scene).report = .ok report) :
    (r.pass scene).relaxation.passes = r.passes + 1 := by
  unfold pass at hr ⊢
  rw [if_neg h] at hr ⊢
  revert hr
  dsimp only
  split
  · exact fun hr => by cases hr
  · exact fun _ => rfl

end Relaxation

/-! ## Runs -/

/-- Passes in a row: the relaxation and the scene behind them, how many were completed, what was
noted of each, the last report, and the fault that ended the run. -/
structure Run (α σ β : Type) where
  relaxation : Relaxation α σ
  scene : Scene α
  count : Nat
  notes : List β
  last : Option PassReport
  fault : Option (Fault α)

namespace Relaxation

/-- Runs passes until every point is stable, at most `limit` of them, and takes notes of each. -/
def run {β : Type} (note : Pass α σ → List β) :
    (limit : Nat) → Relaxation α σ → Scene α → Run α σ β
  | 0, r, scene => ⟨r, scene, 0, [], none, none⟩
  | limit + 1, r, scene =>
    if scene.allStable then ⟨r, scene, 0, [], none, none⟩
    else
      let p := r.pass scene
      let notes := note p
      match p.report with
      | .error f => ⟨p.relaxation, p.scene, 0, notes, none, some f⟩
      | .ok report =>
        let rest := run note limit p.relaxation p.scene
        { rest with
          count := rest.count + 1
          notes := notes ++ rest.notes
          last := rest.last.or (some report) }

end Relaxation
end PointRelaxation
