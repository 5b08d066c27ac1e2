import PointRelaxation.Scene.Point

/-!
# Heatmaps

The best part of a point's latest cloud.
-/

namespace PointRelaxation

namespace Heatmap

variable {α : Type} [Scalar α]

/-- The candidates that have a finite score. -/
def scored (proposals : List (Vec α × Option α)) : List (Vec α × α) :=
  proposals.filterMap fun (v, s?) =>
    match s? with
    | some s => if Scalar.IsFinite s then some (v, s) else none
    | none => none

/-- Scored positions in the order of falling scores; equals keep their order. -/
def ranked (scores : List (Vec α × α)) : List (Vec α × α) :=
  scores.mergeSort fun a b => ¬ a.2 < b.2

/-- How many of `n` positions make up the part `keep` of them: all but the whole number of them that
the rest of the parts comes to. -/
def count (n : Nat) (keep : α) : Except (Fault α) Nat := do
  let total ← Scalar.ofInt n
  let dropped ← Scalar.floorInt (total * ((1.0 : α) - keep))
  return n - dropped.toNat

end Heatmap

/-- The part `keep` of a point's scored candidates that is best, best first. -/
def Point.heatmap {α : Type} [Scalar α] (decimals : Nat) (p : Point α) (keep : α) :
    Except (Fault α) (List (Vec α × α)) := do
  unless (0.0 : α) ≤ keep ∧ keep ≤ 1.0 do throw .keepOutOfRange
  let scored := Heatmap.scored (← p.proposals decimals)
  let count ← Heatmap.count scored.length keep
  return (Heatmap.ranked scored).take count

end PointRelaxation
