import PointRelaxation.Fault

/-!
# Options of a relaxation

Options are asked for by a request and made only if they make sense.
-/

namespace PointRelaxation

structure Options (α : Type) where
  /-- Candidates drawn for a point in a pass. -/
  samples : Nat
  /-- How far from a point its candidates reach. -/
  radius : α
  /-- The seed of the draws. Without one they differ from run to run. -/
  seed : Option Int
  /-- Score against the positions at the start of a pass. -/
  snapshot : Bool
  /-- Pass over the points that are stable already. -/
  skipStable : Bool
  /-- How many passes are run at most. -/
  maxPasses : Nat
  samples_pos : 0 < samples

namespace Options

variable {α : Type} [Scalar α]

/-- Options as they are asked for. -/
structure Request (α : Type) [Scalar α] where
  samples : Int := 10000
  radius : α := 100.0
  seed : Option Int := none
  snapshot : Bool := false
  skipStable : Bool := false
  maxPasses : Int := 1000

/-- The options that are asked for, if they make sense. -/
def ofRequest (r : Request α) : Except (Fault α) (Options α) :=
  if h : r.samples < 1 then .error .tooFewSamples
  else if ¬ (0.0 : α) < r.radius then .error .radiusNotPositive
  else if r.maxPasses < 0 then .error .negativePassLimit
  else .ok {
    samples := r.samples.toNat
    radius := r.radius
    seed := r.seed
    snapshot := r.snapshot
    skipStable := r.skipStable
    maxPasses := r.maxPasses.toNat
    samples_pos := by omega }

/-- The options of those who ask for nothing. -/
def default : Options α where
  samples := 10000
  radius := 100.0
  seed := none
  snapshot := false
  skipStable := false
  maxPasses := 1000
  samples_pos := by decide

end Options
end PointRelaxation
