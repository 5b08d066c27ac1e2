import PointRelaxation.Scene.Name
import PointRelaxation.Scene.Point

/-!
# Scenes

The registry of points, in the order in which they were registered, and the lines, segments,
polygons and measures declared over them. An operation that fails leaves the scene as it was.
-/

namespace PointRelaxation

/-- A distance to be reported, or a gap between two groups of them. -/
inductive Measure where
  | distance (a b : String) (label : Option String)
  | gap
deriving DecidableEq, Repr

/-- Points and what is declared over them. Declarations hold the names of their points. -/
structure Scene (α : Type) where
  decimals : Nat
  points : List (Point α)
  lines : List (String × String)
  segments : List (String × String)
  polygons : List (List String)
  measures : List Measure
  /-- No two points have one name. -/
  nodup : (points.map Point.name).Nodup

namespace Scene

variable {α : Type}

def empty (decimals : Nat) : Scene α := ⟨decimals, [], [], [], [], [], List.nodup_nil⟩

/-- The decimals of the scenes that do not ask for others. -/
def defaultDecimals : Nat := 2

instance : Inhabited (Scene α) := ⟨empty defaultDecimals⟩

/-- A scene at a number of decimals as it is asked for. -/
def ofDecimals (decimals : Int) : Except (Fault α) (Scene α) :=
  if decimals < 0 then .error .negativeDecimals else .ok (empty decimals.toNat)

/-! ## Points -/

def names (scene : Scene α) : List String := scene.points.map Point.name

def size (scene : Scene α) : Nat := scene.points.length

def find? (scene : Scene α) (name : String) : Option (Point α) :=
  scene.points.find? (·.name == name)

def contains (scene : Scene α) (name : String) : Bool := (scene.find? name).isSome

/-- The point of a name. -/
def resolve (scene : Scene α) (name : String) : Except (Fault α) (Point α) :=
  match scene.find? name with
  | some p => .ok p
  | none => .error (.unknownPoint name)

/-- Where the points of a scene stand. -/
def places (scene : Scene α) : Places α := fun name => do
  let p ← scene.resolve name
  return p.position

theorem map_name_map {f : Point α → Point α} (h : ∀ p, (f p).name = p.name)
    (ps : List (Point α)) : (ps.map f).map Point.name = ps.map Point.name := by
  rw [List.map_map]
  exact List.map_congr_left fun p _ => h p

/-- The scene with every point changed in something other than its name. -/
def mapPoints (scene : Scene α) (f : Point α → Point α) (h : ∀ p, (f p).name = p.name) : Scene α :=
  { scene with
    points := scene.points.map f
    nodup := by rw [map_name_map h]; exact scene.nodup }

/-- The scene with the point of the same name replaced. -/
def replace (scene : Scene α) (p : Point α) : Scene α :=
  scene.mapPoints (fun q => if q.name = p.name then p else q) fun q => by
    by_cases h : q.name = p.name
    · rw [if_pos h, h]
    · rw [if_neg h]

theorem not_mem_names_of_contains_eq_false {scene : Scene α} {name : String}
    (h : ¬ scene.contains name) : name ∉ scene.points.map Point.name := by
  simpa [contains, find?] using h

/-- The scene with a point of a new name behind all others. -/
def append (scene : Scene α) (p : Point α) (h : ¬ scene.contains p.name) : Scene α :=
  { scene with
    points := scene.points ++ [p]
    nodup := by
      rw [List.map_append, List.nodup_append]
      refine ⟨scene.nodup, by simp, fun a ha b hb hab => ?_⟩
      rw [hab, List.mem_singleton.1 hb] at ha
      exact not_mem_names_of_contains_eq_false h ha }

/-- The name that a point gets when none is given. -/
def newName (scene : Scene α) : String := "P" ++ toString scene.size

/-- Adds a point behind all others, at the given position rounded to the grid. -/
def register [Scalar α] (scene : Scene α) (name : Option String) (rule : Option (Rule α))
    (position : Vec α) : Except (Fault α) (Point α × Scene α) := do
  let name := name.getD scene.newName
  unless isName name do throw (.invalidName name)
  if h : scene.contains name then throw (.duplicatePoint name)
  else
    let some rule := rule | throw (.missingRule name)
    let position ← Grid.round scene.decimals position
    let p := Point.unvisited name rule position
    return (p, scene.append p h)

def allStable (scene : Scene α) : Bool := scene.points.all Point.stable

/-- Marks every point unstable, so that the next pass visits the scene again. -/
def invalidate (scene : Scene α) : Scene α :=
  scene.mapPoints (fun p => { p with stable := false }) fun _ => rfl

/-! ## Declarations -/

/-- Checks that two names are those of points. -/
def resolvePair (scene : Scene α) (a b : String) : Except (Fault α) Unit := do
  discard (scene.resolve a)
  discard (scene.resolve b)

def addLine (scene : Scene α) (a b : String) : Except (Fault α) (Scene α) := do
  scene.resolvePair a b
  return { scene with lines := scene.lines ++ [(a, b)] }

def addSegment (scene : Scene α) (a b : String) : Except (Fault α) (Scene α) := do
  scene.resolvePair a b
  return { scene with segments := scene.segments ++ [(a, b)] }

/-- The edges of a closed polygon, the last of which leads back to the first corner. -/
def edges : List String → List (String × String)
  | [] => []
  | corner :: corners => (corner :: corners).zip (corners ++ [corner])

/-- Declares a closed polygon and its edges as segments. -/
def addPolygon (scene : Scene α) (corners : List String) : Except (Fault α) (Scene α) := do
  if corners.length < 3 then throw .tooFewCorners
  corners.forM fun name => discard (scene.resolve name)
  return { scene with
    segments := scene.segments ++ edges corners
    polygons := scene.polygons ++ [corners] }

def addMeasure (scene : Scene α) (a b : String) (label : Option String) :
    Except (Fault α) (Scene α) := do
  scene.resolvePair a b
  return { scene with measures := scene.measures ++ [.distance a b label] }

def addMeasureGap (scene : Scene α) : Scene α :=
  { scene with measures := scene.measures ++ [.gap] }

end Scene

namespace Measure

/-- The title of a measure between two points. -/
def title (a b : String) (label : Option String) : String :=
  label.getD ("[ " ++ a ++ " ; " ++ b ++ " ]")

/-- The title and the length of a measure; a gap has neither. -/
def read? {α : Type} [Scalar α] (scene : Scene α) : Measure → Except (Fault α) (Option (String × α))
  | .gap => .ok none
  | .distance a b label => do
    let p ← scene.places a
    let q ← scene.places b
    return some (title a b label, Vec.distance p q)

end Measure
end PointRelaxation
