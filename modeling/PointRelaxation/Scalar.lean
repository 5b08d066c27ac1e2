/-!
# The arithmetic that scenes are computed in

Positions, scores and rules are stated over any `Scalar`, so that one definition serves both the
binary floating point numbers a program runs on and the exact numbers its geometry is about.
-/

namespace PointRelaxation

/-- The whole number just below a scalar, where there is one. -/
inductive Floor where
  | whole (n : Int)
  | infinite
  | undefined
deriving DecidableEq, Repr

/-- A type of numbers with an order, roots and angles. The order may leave an element incomparable
with itself; such an element is no number, and every comparison with it fails. -/
class Scalar (α : Type) extends Add α, Sub α, Mul α, Div α, Neg α, LT α, LE α, OfScientific α where
  decLt (a b : α) : Decidable (a < b)
  decLe (a b : α) : Decidable (a ≤ b)
  abs : α → α
  sqrt : α → α
  sin : α → α
  cos : α → α
  /-- The angle of the direction with the given height and base. -/
  atan2 : α → α → α
  pi : α
  /-- The score of a candidate at which a rule has no value. -/
  lowest : α
  /-- A whole number as a scalar, unless it is too large for one. -/
  ofInt? : Int → Option α
  /-- A ratio of whole numbers as a scalar, unless it is too large for one. -/
  ratio? : Int → Nat → Option α
  floor : α → Floor

namespace Scalar

variable {α : Type} [Scalar α]

instance (a b : α) : Decidable (a < b) := decLt a b

instance (a b : α) : Decidable (a ≤ b) := decLe a b

/-- Neither of two scalars exceeds the other. -/
def Same (a b : α) : Prop := a ≤ b ∧ b ≤ a

instance (a b : α) : Decidable (Same a b) := inferInstanceAs (Decidable (_ ∧ _))

/-- An element that is no number. -/
def IsUndefined (a : α) : Prop := ¬ a ≤ a

instance (a : α) : Decidable (IsUndefined a) := inferInstanceAs (Decidable (¬ _))

/-- A number whose distance to itself is a number. -/
def IsFinite (a : α) : Prop := ¬ IsUndefined (a - a)

instance (a : α) : Decidable (IsFinite a) := inferInstanceAs (Decidable (¬ _))

/-- The larger of two scalars; the first unless the second is strictly larger. -/
def larger (a b : α) : α := if a < b then b else a

/-- The smaller of two scalars; the first unless the second is strictly smaller. -/
def smaller (a b : α) : α := if b < a then b else a

/-- The sum from left to right, started at zero. -/
def total (xs : List α) : α := xs.foldl (· + ·) 0.0

end Scalar
end PointRelaxation
