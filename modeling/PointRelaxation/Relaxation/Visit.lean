import PointRelaxation.Candidates.Cloud
import PointRelaxation.Relaxation.Options
import PointRelaxation.Scene.View

/-!
# Visits

A visit is what a pass does at one point: it proposes a fresh cloud of candidates, evaluates it and
settles the point from it.
-/

namespace PointRelaxation

/-- How far a visit came. -/
inductive Progress (α : Type) where
  /-- No candidates could be proposed. -/
  | unseeded (fault : Fault α)
  /-- The rule failed at one of the candidates. -/
  | unscored (fault : Fault α) (point : Point α)
  /-- The point with its evaluated candidates could not be settled. -/
  | unsettled (fault : Fault α) (scored point : Point α)
  | settled (moved : Bool) (scored point : Point α)

/-- A visit to a point, with the scene and the point as they were when it began. -/
structure Visit (α : Type) where
  scene : Scene α
  found : Point α
  progress : Progress α

namespace Visit

variable {α : Type}

/-- The point as the visit left it. -/
def point (v : Visit α) : Point α :=
  match v.progress with
  | .unseeded _ => v.found
  | .unscored _ p => p
  | .unsettled _ _ p => p
  | .settled _ _ p => p

/-- The fault that ended the visit early. -/
def fault? (v : Visit α) : Option (Fault α) :=
  match v.progress with
  | .unseeded f => some f
  | .unscored f _ => some f
  | .unsettled f _ _ => some f
  | .settled _ _ _ => none

def moved (v : Visit α) : Bool :=
  match v.progress with
  | .settled moved _ _ => moved
  | _ => false

variable [Scalar α] {σ : Type} [Draws σ α]

/-- Visits a point with the candidates that are proposed for it. Its rule sees the scene through a
view. -/
def ofCloud (view : View α) (scene : Scene α) (p : Point α) (m : Candidates α) : Visit α :=
  let progress : Progress α :=
    match { p with candidates := m }.evaluate scene.decimals (view.places scene) with
    | (scored, some f) => .unscored f scored
    | (scored, none) =>
      match scored.settle scene.decimals with
      | (q, .error f) => .unsettled f scored q
      | (q, .ok moved) => .settled moved scored q
  ⟨scene, p, progress⟩

/-- Visits a point of a scene with a fresh cloud. -/
def make (options : Options α) (view : View α) (scene : Scene α) (p : Point α) (s : σ) :
    Visit α × σ :=
  let (cloud, s) := Candidates.seed scene.decimals p.position options.samples options.radius s
  match cloud with
  | .error f => (⟨scene, p, .unseeded f⟩, s)
  | .ok m => (ofCloud view scene p m, s)

end Visit

/-- Whether a pass visits a point. Stable points are passed over if the options say so. -/
def Options.visits {α : Type} (options : Options α) (p : Point α) : Bool :=
  !(options.skipStable && p.stable)

end PointRelaxation
