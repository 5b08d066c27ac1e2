import PointRelaxation.Fault

/-!
# Directions and signed angles

The vector operations that a vector without length has no answer to.
-/

namespace PointRelaxation.Vec

variable {α : Type} [Scalar α]

/-- Vectors at most this long have no direction. -/
def shortest : α := 1e-12

/-- The vector of unit length in the direction of `v`. -/
def normalize (v : Vec α) : Except (Fault α) (Vec α) :=
  let length := norm v
  if length ≤ shortest then .error (.zeroLength v) else .ok ⟨v.x / length, v.y / length⟩

/-- The signed angle from `u` to `v`, counter-clockwise positive. -/
def angleBetween (u v : Vec α) : Except (Fault α) α := do
  let u ← normalize u
  let v ← normalize v
  return Scalar.atan2 (cross u v) (dot u v)

/-- The signed angle at `vertex` from the ray through `a` to the ray through `c`. -/
def angleAt (a vertex c : Vec α) : Except (Fault α) α :=
  angleBetween (between vertex a) (between vertex c)

end PointRelaxation.Vec
