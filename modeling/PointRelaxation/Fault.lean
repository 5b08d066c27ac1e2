import PointRelaxation.Vec

/-!
# What can go wrong

Faults are causes. The wording of each is in `PointRelaxation.Fault.Message`.
-/

namespace PointRelaxation

/-- A cell of the rounding grid, by its place along each axis. -/
structure Cell where
  x : Int
  y : Int
deriving DecidableEq, Repr, Hashable

/-- The reasons for which an operation has no result. -/
inductive Fault (α : Type) where
  /-- A direction was asked of a vector that has none. -/
  | zeroLength (v : Vec α)
  | divisionByZero
  | unknownPoint (name : String)
  | duplicatePoint (name : String)
  | invalidName (name : String)
  /-- A point was to be registered without a scoring rule. -/
  | missingRule (name : String)
  /-- A number was expected and a place found, or the other way round. -/
  | wrongKind
  /-- The middle of no points was asked for. -/
  | noPoints
  /-- A sum of no rules was asked for. -/
  | noRules
  | tooFewCorners
  | negativeDecimals
  | tooFewSamples
  | radiusNotPositive
  | negativePassLimit
  | negativeSeed
  | negativeCount
  | keepOutOfRange
  | noCandidates
  | unevaluated (cell : Cell)
  | floorUndefined
  | floorInfinite
  /-- A whole number exceeds every scalar. -/
  | wholeTooLarge
  /-- A ratio of whole numbers exceeds every scalar. -/
  | ratioTooLarge
deriving Repr, DecidableEq

namespace Fault

variable {α : Type}

/-- Geometry that is undefined at one trial position only. A candidate at which a rule fails so is
scored lowest; every other fault ends the evaluation. -/
def isDegenerate : Fault α → Bool
  | zeroLength _ => true
  | divisionByZero => true
  | _ => false

end Fault

/-- A sequence of two operations has a result exactly if both have one. -/
theorem bind_eq_ok {ε β γ : Type} {x : Except ε β} {f : β → Except ε γ} {c : γ} :
    x >>= f = .ok c ↔ ∃ b, x = .ok b ∧ f b = .ok c := by
  cases x with
  | error f => simp [bind, Except.bind]
  | ok b => simp [bind, Except.bind]

theorem eq_ok_of_toOption {ε β : Type} {x : Except ε β} {b : β} (h : x.toOption = some b) :
    x = .ok b := by
  cases x with
  | error f => cases h
  | ok c => exact congrArg Except.ok (Option.some.inj h)

namespace Scalar

variable {α : Type} [Scalar α]

/-- The quotient of two scalars; nothing is divided by zero. -/
def quotient (a b : α) : Except (Fault α) α :=
  if Same b 0.0 then .error .divisionByZero else .ok (a / b)

/-- A whole number as a scalar. -/
def ofInt (n : Int) : Except (Fault α) α :=
  match ofInt? n with
  | some x => .ok x
  | none => .error .wholeTooLarge

/-- A ratio of whole numbers as a scalar. -/
def ratio (n : Int) (d : Nat) : Except (Fault α) α :=
  match ratio? n d with
  | some x => .ok x
  | none => .error .ratioTooLarge

/-- The whole number just below a scalar. -/
def floorInt (a : α) : Except (Fault α) Int :=
  match floor a with
  | .whole n => .ok n
  | .infinite => .error .floorInfinite
  | .undefined => .error .floorUndefined

end Scalar
end PointRelaxation
