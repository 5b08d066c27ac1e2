import PointRelaxation.Vec.Direction

/-!
# Scoring rules

A rule scores a trial position of the point it belongs to against the places of the other points.
Higher is better. The primitives that measure an error score its negation, so that `0` means exactly
satisfied, and rules add up: several soft relations can be met at the same time.
-/

namespace PointRelaxation

/-- Where the named points stand, as a rule sees them. -/
abbrev Places (α : Type) := String → Except (Fault α) (Vec α)

/-- A score for each trial position, given where the points stand. -/
abbrev Rule (α : Type) := Vec α → Places α → Except (Fault α) α

namespace Score

variable {α : Type} [Scalar α]

/-! ## Scores of quantities -/

def greater (a b : α) : α := a - b

def lowest (x : α) : α := -x

def lowestAbs (x : α) : α := lowest (Scalar.abs x)

def highest (x : α) : α := x

def highestAbs (x : α) : α := highest (Scalar.abs x)

def equal (a b : α) : α := lowestAbs (a - b)

/-! ## Scores of positions -/

/-- Stand at `(x, y)`. -/
def atPosition (p : Vec α) (x y : α) : α := -Vec.distance p ⟨x, y⟩

/-- Stand on the circle around `center`. -/
def onCircle (p center : Vec α) (radius : α) : α := equal radius (Vec.distance p center)

def atDistanceEqual (a b : α) : α := equal a b

/-- Make the signed angle at `vertex` from `a` to `c` equal to `angle`. Any of the three may be the
trial position. -/
def atAngle (angle : α) (a vertex c : Vec α) : Except (Fault α) α := do
  let measured ← Vec.angleAt a vertex c
  return equal measured angle

/-- Stand at `offset` from `origin`. -/
def translatedByVector (p origin offset : Vec α) : α := -Vec.distance p (Vec.add origin offset)

/-- Stand from `origin` as `finish` stands from `start`. -/
def translatedBySegment (p origin start finish : Vec α) : α :=
  translatedByVector p origin (Vec.between start finish)

/-- Keep the largest distance to the points small, and with it the circle around `p` that holds
them all. -/
def atMiddleOf (p : Vec α) : List (Vec α) → Except (Fault α) α
  | [] => .error .noPoints
  | q :: qs =>
    .ok (lowest (qs.foldl (fun d r => Scalar.larger d (Vec.distance p r)) (Vec.distance p q)))

/-- Stand closer to `near` than to `far`, the more the better. -/
def closerToThan (p near far : Vec α) : α := greater (Vec.distance p far) (Vec.distance p near)

/-- Stand on the line through `a` and `b`. -/
def alignedWith (p a b : Vec α) : Except (Fault α) α := do
  let direction ← Vec.normalize (Vec.between a b)
  return lowestAbs (Vec.cross direction (Vec.between a p))

/-- The sum of the scores of at least one rule. -/
def combined : List α → Except (Fault α) α
  | [] => .error .noRules
  | s :: ss => .ok (Scalar.total (s :: ss))

end Score

namespace Rule

variable {α : Type} [Scalar α]

/-- The rule that scores the sum of rules. -/
def combine (rules : List (Rule α)) : Rule α := fun p places => do
  let scores ← rules.mapM fun rule => rule p places
  Score.combined scores

end Rule
end PointRelaxation
