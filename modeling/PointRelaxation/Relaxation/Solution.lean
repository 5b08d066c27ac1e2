import PointRelaxation.Relaxation

/-!
# Solutions

What a scene has come to when its relaxation ends.
-/

namespace PointRelaxation

/-- What a solution warns of. -/
inductive Warning where
  /-- A point had degenerate candidates in the final pass. -/
  | degenerate (name : String) (count : Nat)
  /-- The passes were spent before every point was stable. -/
  | unstable (limit : Nat) (names : List String)
deriving DecidableEq, Repr

namespace Warning

def message : Warning → String
  | degenerate name count =>
    "point " ++ name ++ ": " ++ toString count ++ " degenerate candidate(s) in the final pass"
  | unstable limit names =>
    "scene did not stabilise within " ++ toString limit ++ " pass(es); unstable points: " ++
      ", ".intercalate names

end Warning

structure Solution (α : Type) where
  positions : List (String × Vec α)
  scores : List (String × α)
  stable : List (String × Bool)
  success : Bool
  passes : Nat
  warnings : List Warning

namespace Solution

variable {α : Type}

/-- The names of the points that are not stable. -/
def unstableNames (scene : Scene α) : List String :=
  (scene.points.filter (!·.stable)).map Point.name

/-- The solution that a scene has come to. -/
def ofRun {σ β : Type} (limit : Nat) (r : Run α σ β) : Solution α :=
  let success := r.scene.allStable
  let degenerate := (r.last.map PassReport.degenerate).getD []
  { positions := r.scene.points.map fun p => (p.name, p.position)
    scores := r.scene.points.map fun p => (p.name, p.score)
    stable := r.scene.points.map fun p => (p.name, p.stable)
    success
    passes := r.relaxation.passes
    warnings := degenerate.map (fun (name, count) => .degenerate name count) ++
      if success then [] else [.unstable limit (unstableNames r.scene)] }

/-- The rank of a solution, smaller being better: its unstable points first, then the sum of the
finite scores, negated. -/
def rank [Scalar α] (s : Solution α) : Nat × α :=
  let finite := (s.scores.map Prod.snd).filter fun x => Scalar.IsFinite x
  ((s.stable.filter fun e => !e.2).length, -Scalar.total finite)

end Solution

namespace Relaxation

variable {α : Type} [Scalar α] {σ : Type} [Draws σ α]

/-- Relaxes a scene from the beginning until every point is stable or the passes are spent. -/
def solve {β : Type} (note : Pass α σ → List β) (options : Options α) (source : σ)
    (scene : Scene α) : Run α σ β :=
  (start options source).run note options.maxPasses scene

end Relaxation
end PointRelaxation
