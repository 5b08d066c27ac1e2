import Mathlib.Algebra.Order.Floor.Ring
import Mathlib.Data.Rat.Floor
import Mathlib.Data.Rat.Sqrt
import Mathlib.Tactic.Ring
import PointRelaxation.Proofs.Cloud
import PointRelaxation.Relaxation.Solution

/-!
# Exact arithmetic

Rational numbers as scalars: sums and products are exact, a root is exact where there is one, and
directions are measured along the diamond `|x| + |y| = 1`, half of which has length two. In this
arithmetic relaxations can be computed in full, and the grid is what it is meant to be.

* `Grid.RoundTrips`: the position that stands for a cell lies in it.
* `Grid.roundTrips_exact`: in exact arithmetic this holds of every cell.
* `Exact.pursuit`: a scene small enough to be relaxed by hand.
-/

namespace PointRelaxation

/-- The rational numbers as scalars. -/
def Exact : Type := ℚ

namespace Exact

instance : DecidableEq Exact := inferInstanceAs (DecidableEq ℚ)

instance : Inhabited Exact := inferInstanceAs (Inhabited ℚ)

/-- The base of the direction at an angle: the angle is taken within a turn of length four, on
which the base falls from one to minus one and rises again. -/
def base (angle : ℚ) : ℚ :=
  let rest := angle - 4 * ⌊angle / 4⌋
  if rest ≤ 2 then 1 - rest else rest - 3

/-- The height of the direction at an angle, which is the base of the direction a quarter turn
before. -/
def height (angle : ℚ) : ℚ := base (angle - 1)

/-- The angle of the direction with the given height and base. -/
def angle (height base : ℚ) : ℚ :=
  if height = 0 ∧ base = 0 then 0
  else
    let share := height / (|height| + |base|)
    if 0 ≤ base then share else if 0 ≤ height then 2 - share else -2 - share

instance : Scalar Exact where
  toAdd := inferInstanceAs (Add ℚ)
  toSub := inferInstanceAs (Sub ℚ)
  toMul := inferInstanceAs (Mul ℚ)
  toDiv := inferInstanceAs (Div ℚ)
  toNeg := inferInstanceAs (Neg ℚ)
  toLT := inferInstanceAs (LT ℚ)
  toLE := inferInstanceAs (LE ℚ)
  toOfScientific := inferInstanceAs (OfScientific ℚ)
  decLt := inferInstanceAs (DecidableLT ℚ)
  decLe := inferInstanceAs (DecidableLE ℚ)
  abs := (fun x => |x| : ℚ → ℚ)
  sqrt := Rat.sqrt
  sin := height
  cos := base
  atan2 := angle
  pi := (2 : ℚ)
  lowest := (-2 ^ 1024 : ℚ)
  ofInt? n := some (n : ℚ)
  ratio? n d := some ((n : ℚ) / d : ℚ)
  floor := fun x : ℚ => .whole ⌊x⌋

instance : OrderedScalar Exact where
  le_total a b _ _ := le_total (α := ℚ) a b
  le_trans a b c := le_trans (α := ℚ) (a := a) (b := b) (c := c)
  lowest_le_lowest := le_refl (α := ℚ) _

end Exact

/-! ## The grid -/

/-- The position that stands for a cell lies in it. -/
def Grid.RoundTrips (α : Type) [Scalar α] (decimals : ℤ) (c : Cell) : Prop :=
  ∀ v : Vec α, Grid.place decimals c = .ok v → Grid.cell decimals v = .ok c

namespace Grid

lemma index_exact (decimals : ℕ) (n : ℤ) :
    index (α := Exact) decimals (n / (10 ^ decimals : ℕ) : ℚ) = .ok n := by
  have hcells : ((10 ^ decimals : ℕ) : ℚ) ≠ 0 := by positivity
  have hfloor : ⌊(n / (10 ^ decimals : ℕ) : ℚ) * ((10 ^ decimals : ℕ) : ℤ) + 0.5⌋ = n := by
    rw [Int.cast_natCast, div_mul_cancel₀ _ hcells, Int.floor_intCast_add]
    norm_num
  exact congrArg Except.ok hfloor

/-- In exact arithmetic every cell holds the position that stands for it. -/
lemma roundTrips_exact (decimals : ℕ) (c : Cell) : RoundTrips Exact decimals c := by
  intro v hv
  let x : ℚ := c.x / (10 ^ decimals : ℕ)
  let y : ℚ := c.y / (10 ^ decimals : ℕ)
  obtain rfl : (⟨x, y⟩ : Vec Exact) = v := Except.ok.inj hv
  exact bind_eq_ok.2 ⟨c.x, index_exact decimals c.x,
    bind_eq_ok.2 ⟨c.y, index_exact decimals c.y, rfl⟩⟩

end Grid

/-! ## A pursuit -/

namespace Exact

/-- The closer to the origin, the better. -/
def toOrigin : Rule Exact := fun v _ => .ok (-Vec.normSq v)

/-- The closer to the point `A`, the better. -/
def toLeader : Rule Exact := fun v places => do
  let leader ← places "A"
  return -Vec.normSq (Vec.between leader v)

def startingPoint : Vec Exact := ⟨-1.0, 0.0⟩

/-- A point on its way to the origin. -/
def solitude : Scene Exact where
  decimals := 0
  points := [.unvisited "A" toOrigin startingPoint]
  lines := []
  segments := []
  polygons := []
  measures := []
  nodup := List.nodup_singleton _

/-- A point on its way to the origin, and one that follows it. -/
def pursuit : Scene Exact where
  decimals := 0
  points := [.unvisited "A" toOrigin startingPoint, .unvisited "B" toLeader startingPoint]
  lines := []
  segments := []
  polygons := []
  measures := []
  nodup := by decide

/-- The first point is registered in a scene without points. -/
lemma register_solitude :
    (Scene.empty 0).register (some "A") (some toOrigin) startingPoint =
      .ok (.unvisited "A" toOrigin startingPoint, solitude) := by
  with_unfolding_all rfl

/-- The one that follows it is registered behind it. -/
lemma register_pursuit :
    solitude.register (some "B") (some toLeader) startingPoint =
      .ok (.unvisited "B" toLeader startingPoint, pursuit) := by
  with_unfolding_all rfl

def pursuitOptions : Options Exact where
  samples := 2
  radius := 4.0
  seed := none
  snapshot := false
  skipStable := false
  maxPasses := 5
  samples_pos := by decide

/-- Draws that propose the cell of a point and the next one to the east. -/
def pursuitDraws : Script Exact := .ofList [0.0, 0.0, 0.0, 0.5]

/-- The first pass of the pursuit. -/
def pursuitPass : Pass Exact (Script Exact) :=
  (Relaxation.start pursuitOptions pursuitDraws).pass pursuit

/-- Both points move in the first pass. -/
lemma report_pursuitPass :
    pursuitPass.report = .ok ⟨0, false, ["A", "B"], ["A", "B"], ["A", "B"], []⟩ := by
  refine eq_ok_of_toOption ?_
  unfold pursuitPass
  simp only [Relaxation.pass, Relaxation.sweepDue, Visit.make_eq_listed]
  decide +kernel

/-- The pursuit as it is solved. -/
def pursuitRun : Run Exact (Script Exact) Unit :=
  Relaxation.solve (fun _ => []) pursuitOptions pursuitDraws pursuit

/-- Both points reach the origin in one pass, and the next one finds them stable. -/
lemma pursuitRun_spec : pursuitRun.fault = none ∧ pursuitRun.scene.allStable ∧
    pursuitRun.relaxation.passes = 2 := by
  unfold pursuitRun pursuitOptions
  simp only [Relaxation.solve, Relaxation.run, Relaxation.pass, Relaxation.sweepDue,
    Visit.make_eq_listed]
  decide +kernel

end Exact
end PointRelaxation
