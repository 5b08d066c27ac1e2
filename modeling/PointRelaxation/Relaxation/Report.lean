import PointRelaxation.Relaxation.Visit

/-!
# Pass reports

The outcome of a pass, by the names of the points it visited.
-/

namespace PointRelaxation

structure PassReport where
  index : Nat
  /-- Every point was stable, and nothing was done. -/
  idle : Bool
  evaluated : List String
  moved : List String
  unstable : List String
  /-- The points with degenerate candidates, and how many they have. -/
  degenerate : List (String × Nat)
deriving DecidableEq, Repr

namespace PassReport

variable {α : Type}

/-- The report of a pass that found nothing to do. -/
def ofIdle (index : Nat) : PassReport := ⟨index, true, [], [], [], []⟩

/-- The report of the visits of a pass. -/
def ofVisits (index : Nat) (visits : List (Visit α)) : PassReport where
  index := index
  idle := false
  evaluated := visits.map (·.point.name)
  moved := (visits.filter (·.moved)).map (·.point.name)
  unstable := (visits.filter (!·.point.stable)).map (·.point.name)
  degenerate := (visits.filter (0 < ·.point.degenerate)).map
    fun v => (v.point.name, v.point.degenerate.toNat)

/-- Whether a report leaves no point unstable. -/
def allStable (r : PassReport) : Bool := r.idle || r.unstable.isEmpty

end PassReport
end PointRelaxation
