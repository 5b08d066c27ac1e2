import PointRelaxation.Fault.Message
import PointRelaxation.Scene

/-!
# Descriptions of points and scenes

Each on one line.
-/

namespace PointRelaxation

/-- A position with its coordinates named. -/
def Vec.describe (v : Vec Float) : String :=
  Text.record "Vec2" [("x", Text.full v.x), ("y", Text.full v.y)]

/-- A point by its name, its position to the decimals of its scene, its score and its stability. -/
def Point.describe (decimals : Nat) (p : Point Float) : String :=
  Text.record "Point" [
    ("name", Text.quoted p.name),
    ("position",
      Text.tupled [Text.places decimals p.position.x, Text.places decimals p.position.y]),
    ("score", Text.significant 6 p.score),
    ("stable", Text.truth p.stable)]

def Scene.describe {α : Type} (scene : Scene α) : String :=
  Text.record "Scene" [("points", toString scene.size), ("decimals", toString scene.decimals)]

end PointRelaxation
