import PointRelaxation.Rule.Term
import PointRelaxation.Scene

/-!
# The folding table

A ready-made scene: the side view of a folding table with scissor legs. The points `A1` to `A4` are
the large plank, which lies on the floor, and `B1` to `B4` the small plank, which crosses it at `P`.
`C1` to `C4` and `P2` are the points at which the planks leave the lines of floor and top, `T1` to
`T4` the top frame, and `TT1` to `TT4` the table top.
-/

namespace PointRelaxation

/-- The measures of a folding table. -/
structure FoldingTable (α : Type) [Scalar α] where
  plankLength : α := 90.0
  largePlankWidth : α := 6.2
  smallPlankWidth : α := 3.8
  plankAngle : α := Scalar.pi / 4.0
  topWidth : α := 40.0
  topHeight : α := 2.0
  tableTopWidth : α := 45.0

namespace FoldingTable

variable {α : Type} [Scalar α]

/-! ## The terms of its rules -/

abbrev Number (α : Type) := Term α .number

abbrev Location (α : Type) := Term α .place

def num (x : α) : Number α := .const x

def pt (name : String) : Location α := .point name

/-- The sum of two scores. -/
def plus (a b : Number α) : Number α := .apply .plus (.cons a (.cons b .nil))

def distance (a b : Location α) : Number α := .apply .distance (.cons a (.cons b .nil))

def angleAt (a vertex c : Location α) : Number α :=
  .apply .angleAt (.cons a (.cons vertex (.cons c .nil)))

def equal (a b : Number α) : Number α := .apply .equal (.cons a (.cons b .nil))

def atPosition (x y : α) : Number α :=
  .apply .atPosition (.cons .trial (.cons (num x) (.cons (num y) .nil)))

def onCircle (center : Location α) (radius : Number α) : Number α :=
  .apply .onCircle (.cons .trial (.cons center (.cons radius .nil)))

def atAngle (angle : α) (a vertex c : Location α) : Number α :=
  .apply .atAngle (.cons (num angle) (.cons a (.cons vertex (.cons c .nil))))

def translated (origin start finish : Location α) : Number α :=
  .apply .translatedBySegment (.cons .trial (.cons origin (.cons start (.cons finish .nil))))

def middleOf (a b : Location α) : Number α :=
  .apply .atMiddleOf (.cons .trial (.cons (.cons a (.cons b .nil)) .nil))

def closer (near far : Location α) : Number α :=
  .apply .closerToThan (.cons .trial (.cons near (.cons far .nil)))

def aligned (a b : Location α) : Number α :=
  .apply .alignedWith (.cons .trial (.cons a (.cons b .nil)))

/-- The crossing of the lines through two pairs of points. -/
def crossing (a b c d : String) : Number α := plus (aligned (pt a) (pt b)) (aligned (pt c) (pt d))

/-- A corner of the top frame: on the upper edge of the small plank, at half the top's width from
its middle, on the side of `near`. -/
def topCorner (table : FoldingTable α) (near far : String) : Number α :=
  plus (plus (aligned (pt "A2") (pt "B3")) (onCircle (pt "M") (num (table.topWidth / 2.0))))
    (closer (pt near) (pt far))

/-! ## The scene -/

/-- The points in the order of their registration, with their rules. A rule looks only at points
that stand before its own. -/
def rules (table : FoldingTable α) : List (String × Number α) :=
  let half := table.plankLength / 2.0
  let right : α := Scalar.pi / 2.0
  [("A1", atPosition (-half) 0.0),
    ("A2", atPosition half 0.0),
    ("A3", plus (onCircle (pt "A2") (num table.largePlankWidth))
      (equal (angleAt (pt "A1") (pt "A2") .trial) (num (-Scalar.pi / 2.0)))),
    ("A4", plus (onCircle (pt "A3") (num table.plankLength))
      (translated (pt "A1") (pt "A2") (pt "A3"))),
    ("P", middleOf (pt "A1") (pt "A2")),
    ("B3", plus (atAngle table.plankAngle (pt "A2") (pt "P") .trial)
      (onCircle (pt "P") (distance (pt "P") (pt "A2")))),
    ("B2", plus (atAngle right (pt "P") (pt "B3") .trial)
      (onCircle (pt "B3") (num table.smallPlankWidth))),
    ("B4", plus (atAngle right .trial (pt "B3") (pt "B2"))
      (onCircle (pt "B3") (num table.plankLength))),
    ("B1", translated (pt "B4") (pt "B3") (pt "B2")),
    ("C1", crossing "B3" "B4" "A4" "B1"),
    ("C2", crossing "A2" "B3" "A3" "A4"),
    ("C3", crossing "A2" "B3" "B1" "B2"),
    ("C4", crossing "A1" "A2" "A4" "B1"),
    ("P2", crossing "A3" "A4" "B1" "B2"),
    ("M", middleOf (pt "A2") (pt "B3")),
    ("T1", topCorner table "C2" "C3"),
    ("T4", topCorner table "C3" "C2"),
    ("T2", plus (onCircle (pt "T1") (num table.topHeight))
      (atAngle right .trial (pt "T1") (pt "M"))),
    ("T3", translated (pt "T4") (pt "T1") (pt "T2")),
    ("M2", middleOf (pt "T2") (pt "T3")),
    ("TT1", plus (plus (aligned (pt "T2") (pt "T3"))
      (onCircle (pt "M") (num (table.tableTopWidth / 2.0)))) (closer (pt "T2") (pt "T3"))),
    ("TT2", translated (pt "TT1") (pt "T1") (pt "T2")),
    ("TT4", translated (pt "M2") (pt "TT1") (pt "M2")),
    ("TT3", translated (pt "TT4") (pt "TT1") (pt "TT2"))]

def polygons : List (List String) :=
  [["A1", "A2", "A3", "A4"], ["B1", "B2", "B3", "B4"], ["T1", "T2", "T3", "T4"],
    ["TT1", "TT2", "TT3", "TT4"]]

/-- The measures of the table in groups, between which the report has a gap. -/
def measures : List Measure :=
  [.distance "A2" "B3" (some "top plank footprint"),
    .distance "A4" "B1" (some "floor footprint"),
    .distance "P" "P2" (some "middle overlap height"),
    .gap,
    .distance "A3" "C2" (some "large plank top cut"),
    .distance "A1" "C4" (some "large plank bottom cut"),
    .gap,
    .distance "B2" "C3" (some "small plank top cut"),
    .distance "B4" "C1" (some "small plank bottom cut")]

/-- One step of building a scene, of which a fault keeps what was built before it. -/
abbrev Building (α : Type) := ExceptT (Fault α) (StateM (Scene α))

/-- Applies an operation to the scene that is being built. -/
def Building.apply (f : Scene α → Except (Fault α) (Scene α)) : Building α Unit := do
  match f (← get) with
  | .ok scene => set scene
  | .error fault => throw fault

/-- Builds a folding table into a scene. -/
def build (table : FoldingTable α) : Building α Unit := do
  table.rules.forM fun (name, term) => Building.apply fun scene => do
    let (_, scene) ← scene.register (some name) (some term.toRule) Vec.zero
    return scene
  Building.apply (·.addLine "A4" "B1")
  polygons.forM fun corners => Building.apply (·.addPolygon corners)
  measures.forM fun
    | .distance a b label => Building.apply (·.addMeasure a b label)
    | .gap => Building.apply fun scene => .ok scene.addMeasureGap

/-- The scene with a folding table built into it, and the fault that ended the building, if any. -/
def buildInto (table : FoldingTable α) (scene : Scene α) : Scene α × Option (Fault α) :=
  match (table.build.run).run scene with
  | (.ok _, scene) => (scene, none)
  | (.error f, scene) => (scene, some f)

end FoldingTable
end PointRelaxation
