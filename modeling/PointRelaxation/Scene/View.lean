import PointRelaxation.Scene

/-!
# Views of a scene

The read-only look-up of positions that rules are given.
-/

namespace PointRelaxation

/-- A live view shows where points stand at each moment, a frozen one where they stood when it was
made. -/
inductive View (α : Type) where
  | live
  | frozen (positions : List (String × Vec α))

namespace View

variable {α : Type}

/-- A view of a scene as it is now. -/
def make (scene : Scene α) (frozen : Bool) : View α :=
  if frozen then .frozen (scene.points.map fun p => (p.name, p.position)) else live

def isFrozen : View α → Bool
  | live => false
  | frozen _ => true

/-- Where the points stand in a view of a scene. -/
def places (scene : Scene α) : View α → Places α
  | live => scene.places
  | frozen positions => fun name =>
    match positions.lookup name with
    | some v => .ok v
    | none => .error (.unknownPoint name)

/-- The names that a view of a scene lists. -/
def names (scene : Scene α) (_ : View α) : List String := scene.names

def contains (scene : Scene α) (view : View α) (name : String) : Bool :=
  (view.places scene name).isOk

/-- The positions of the names that a view lists, in that order. -/
def positions (scene : Scene α) (view : View α) : Except (Fault α) (List (String × Vec α)) :=
  (view.names scene).mapM fun name => do
    let v ← view.places scene name
    return (name, v)

end View
end PointRelaxation
