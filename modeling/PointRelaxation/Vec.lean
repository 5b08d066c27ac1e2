import PointRelaxation.Scalar

/-!
# Vectors of the plane

The operations that are defined for every pair of scalars.
-/

namespace PointRelaxation

/-- A position in the plane, or a displacement between two. -/
structure Vec (α : Type) where
  x : α
  y : α
deriving Repr, DecidableEq

namespace Vec

variable {α : Type} [Scalar α]

/-- The origin of the plane. -/
def zero : Vec α := ⟨0.0, 0.0⟩

instance : Inhabited (Vec α) := ⟨zero⟩

/-- The displacement from `a` to `b`. -/
def between (a b : Vec α) : Vec α := ⟨b.x - a.x, b.y - a.y⟩

def add (a b : Vec α) : Vec α := ⟨a.x + b.x, a.y + b.y⟩

def dot (a b : Vec α) : α := a.x * b.x + a.y * b.y

/-- Twice the signed area of the triangle that `a` and `b` span. -/
def cross (a b : Vec α) : α := a.x * b.y - a.y * b.x

def normSq (v : Vec α) : α := dot v v

def norm (v : Vec α) : α := Scalar.sqrt (normSq v)

def distance (a b : Vec α) : α := norm (between a b)

end Vec
end PointRelaxation
