import PointRelaxation.Picture.NodeName
import PointRelaxation.Scene

/-!
# Pictures of a scene, as statements

A picture declares a node for each point, clips what is drawn to a frame around them, and draws the
polygons, lines, segments and labelled points. What involves an unstable point is marked.
-/

namespace PointRelaxation

namespace Picture

/-- A statement of a picture. -/
inductive Statement (α : Type) where
  | coordinate (node : String) (v : Vec α)
  | clip (low high : Vec α)
  | fill (nodes : List String) (stable : Bool)
  | line (start finish : Vec α) (stable : Bool)
  | segment (a b : String) (stable : Bool)
  | dot (node : String) (stable : Bool)
  | label (node : String) (text : String) (stable : Bool)
deriving Repr, DecidableEq

variable {α : Type} [Scalar α]

/-! ## The frame -/

/-- An upright rectangle by its lower left and its upper right corner. -/
structure Frame (α : Type) where
  low : Vec α
  high : Vec α

/-- The least of some coordinates, the earliest among equals; zero if there are none. -/
def least : List α → α
  | [] => 0.0
  | x :: xs => xs.foldl Scalar.smaller x

/-- The greatest of some coordinates, the earliest among equals; zero if there are none. -/
def greatest : List α → α
  | [] => 0.0
  | x :: xs => xs.foldl Scalar.larger x

/-- The smallest frame that holds positions. -/
def Frame.around (positions : List (Vec α)) : Frame α :=
  let xs := positions.map Vec.x
  let ys := positions.map Vec.y
  ⟨⟨least xs, least ys⟩, ⟨greatest xs, greatest ys⟩⟩

/-- A frame with a margin of a tenth of its larger side, at least of a tenth of a unit. -/
def Frame.widened (f : Frame α) : Frame α :=
  let width := f.high.x - f.low.x
  let height := f.high.y - f.low.y
  let margin := Scalar.larger (Scalar.larger width height) 1.0 * (0.1 : α)
  ⟨⟨f.low.x - margin, f.low.y - margin⟩, ⟨f.high.x + margin, f.high.y + margin⟩⟩

/-- The sum of the sides of a frame, which no straight line within it exceeds. -/
def Frame.reach (f : Frame α) : α := (f.high.x - f.low.x) + (f.high.y - f.low.y)

/-! ## The statements -/

/-- The line through two points, drawn for a length of `reach` from the first to either side. Points
that stand at one place determine no line. -/
def lineThrough? (reach : α) (a b : Point α) : Option (Statement α) :=
  let direction := Vec.between a.position b.position
  let length := Vec.norm direction
  if Scalar.Same length 0.0 then none
  else
    let ux := direction.x / length * reach
    let uy := direction.y / length * reach
    some (.line ⟨a.position.x - ux, a.position.y - uy⟩ ⟨a.position.x + ux, a.position.y + uy⟩
      (a.stable && b.stable))

/-- The node of a point of a scene. -/
def node (scene : Scene α) (name : String) : String :=
  ((nodeNames scene.names).lookup name).getD ""

/-- The points of given names. -/
def resolveAll (scene : Scene α) (names : List String) : List (Point α) :=
  names.filterMap scene.find?

def fillOf (scene : Scene α) (corners : List String) : Statement α :=
  .fill (corners.map (node scene)) ((resolveAll scene corners).all Point.stable)

def segmentOf (scene : Scene α) (edge : String × String) : Statement α :=
  .segment (node scene edge.1) (node scene edge.2)
    ((resolveAll scene [edge.1, edge.2]).all Point.stable)

def lineOf? (scene : Scene α) (reach : α) (line : String × String) : Option (Statement α) := do
  let a ← scene.find? line.1
  let b ← scene.find? line.2
  lineThrough? reach a b

/-- The frame that a picture of a scene is clipped to. -/
def frame (scene : Scene α) : Frame α := (Frame.around (scene.points.map Point.position)).widened

/-- The statements of the picture of a scene. -/
def statements (scene : Scene α) : List (Statement α) :=
  let f := frame scene
  scene.points.map (fun p => .coordinate (node scene p.name) p.position) ++
    [.clip f.low f.high] ++
    scene.polygons.map (fillOf scene) ++
    scene.lines.filterMap (lineOf? scene f.reach) ++
    scene.segments.map (segmentOf scene) ++
    scene.points.flatMap fun p =>
      [.dot (node scene p.name) p.stable, .label (node scene p.name) p.name p.stable]

end Picture
end PointRelaxation
