import PointRelaxation.Scene
import PointRelaxation.Text.Number

/-!
# Summaries of a scene

Its positions, its measures, and the tables printed of both.
-/

namespace PointRelaxation.Scene

section

variable {α : Type}

def positions (scene : Scene α) : List (String × Vec α) :=
  scene.points.map fun p => (p.name, p.position)

def stability (scene : Scene α) : List (String × Bool) :=
  scene.points.map fun p => (p.name, p.stable)

variable [Scalar α]

/-- The title and length of each measure, and nothing for a gap. -/
def readMeasures (scene : Scene α) : Except (Fault α) (List (Option (String × α))) :=
  scene.measures.mapM (Measure.read? scene)

end

/-- One line for each measure, and an empty one for each gap. -/
def measureReport (scene : Scene Float) (unit : String) : Except (Fault Float) String := do
  let rows ← scene.readMeasures
  let line : Option (String × Float) → String
    | some (title, length) => title ++ " = " ++ Text.places 2 length ++ " " ++ unit
    | none => ""
  return "\n".intercalate (rows.map line)

/-- One line for each point, in columns. -/
def pointTable (scene : Scene Float) : String :=
  let line (p : Point Float) : String :=
    Text.padLeft 6 p.name ++ "  (" ++ Text.padLeft 9 (Text.places 2 p.position.x) ++ ", " ++
      Text.padLeft 9 (Text.places 2 p.position.y) ++ ")  score=" ++ Text.significant 4 p.score ++
      "  " ++ if p.stable then "stable" else "unstable"
  "\n".intercalate (scene.points.map line)

end PointRelaxation.Scene
