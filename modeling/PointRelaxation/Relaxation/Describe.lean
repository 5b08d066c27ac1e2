import PointRelaxation.Fault.Message
import PointRelaxation.Relaxation.Solution

/-!
# Descriptions of options, reports and solutions

Each on one line, field by field.
-/

namespace PointRelaxation

open Text (absent braced commas entry full listed quoted record truth)

/-- Values by the names of their points. -/
def Text.byName {β : Type} (text : β → String) (entries : List (String × β)) : String :=
  braced (entries.map fun (name, value) => entry (quoted name) (text value))

def Options.describe (o : Options Float) : String :=
  record "SolveOptions" [
    ("samples", toString o.samples),
    ("radius", full o.radius),
    ("random_seed", (o.seed.map toString).getD absent),
    ("snapshot", truth o.snapshot),
    ("skip_stable", truth o.skipStable),
    ("max_passes", toString o.maxPasses)]

def PassReport.describe (r : PassReport) : String :=
  record "PassReport" [
    ("index", toString r.index),
    ("idle", truth r.idle),
    ("evaluated", listed (r.evaluated.map quoted)),
    ("moved", listed (r.moved.map quoted)),
    ("unstable", listed (r.unstable.map quoted)),
    ("degenerate", Text.byName toString r.degenerate)]

def Solution.describe (s : Solution Float) : String :=
  record "Solution" [
    ("point_coords", Text.byName Vec.text s.positions),
    ("scores", Text.byName full s.scores),
    ("stable", Text.byName truth s.stable),
    ("success", truth s.success),
    ("passes", toString s.passes),
    ("warnings", listed (s.warnings.map fun w => quoted w.message))]

end PointRelaxation
