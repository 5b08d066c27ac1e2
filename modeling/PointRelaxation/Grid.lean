import PointRelaxation.Fault

/-!
# The rounding grid

Positions are held to a number of decimals, and a cell is the pair of whole numbers that such a
position becomes when its decimal point is moved away.
-/

namespace PointRelaxation

/-- The cells along a unit of length. There are `10 ^ d` of them at `d` decimals, and a tenth, a
hundredth and so on of one at negative numbers of decimals. -/
inductive Resolution (α : Type) where
  | whole (cells : Nat)
  | part (cells : α)

namespace Resolution

variable {α : Type} [Scalar α]

def ofDecimals : Int → Resolution α
  | .ofNat d => .whole (Nat.pow 10 d)
  | .negSucc d => .part (OfScientific.ofScientific 1 true (d + 1))

/-- The number of cells as a scalar. -/
def toScalar : Resolution α → Except (Fault α) α
  | whole cells => Scalar.ofInt cells
  | part cells => .ok cells

/-- A length counted in cells. -/
def count (r : Resolution α) (x : α) : Except (Fault α) α := do
  let cells ← r.toScalar
  return x * cells

/-- The length of a count of cells. -/
def length (n : Int) : Resolution α → Except (Fault α) α
  | whole cells => Scalar.ratio n cells
  | part cells => do
    let x ← Scalar.ofInt n
    Scalar.quotient x cells

end Resolution

namespace Grid

variable {α : Type} [Scalar α]

/-- The cell of a coordinate: the nearest whole count of cells, a half counted upwards. -/
def index (decimals : Int) (x : α) : Except (Fault α) Int := do
  let n ← (Resolution.ofDecimals decimals).count x
  Scalar.floorInt (n + 0.5)

/-- The coordinate of a cell. -/
def coordinate (decimals : Int) (n : Int) : Except (Fault α) α :=
  (Resolution.ofDecimals decimals).length n

def roundCoordinate (decimals : Int) (x : α) : Except (Fault α) α := do
  let n ← index decimals x
  coordinate decimals n

/-- The cell that holds a position. -/
def cell (decimals : Int) (v : Vec α) : Except (Fault α) Cell := do
  let x ← index decimals v.x
  let y ← index decimals v.y
  return ⟨x, y⟩

/-- The position that stands for a cell. -/
def place (decimals : Int) (c : Cell) : Except (Fault α) (Vec α) := do
  let x ← coordinate decimals c.x
  let y ← coordinate decimals c.y
  return ⟨x, y⟩

/-- The position that stands for the cell of `v`. -/
def round (decimals : Int) (v : Vec α) : Except (Fault α) (Vec α) := do
  let c ← cell decimals v
  place decimals c

end Grid
end PointRelaxation
