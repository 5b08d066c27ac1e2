import PointRelaxation.Candidates.Scoring

/-!
# Points

What a scene knows of each named position, and how a point is settled from its candidates.
-/

namespace PointRelaxation

/-- A named point, placed by its own scoring rule. -/
structure Point (α : Type) where
  name : String
  rule : Rule α
  position : Vec α
  score : α
  /-- The candidates of the latest pass that visited the point. -/
  candidates : Candidates α
  /-- The latest visit found nothing better than where the point stood. -/
  stable : Bool
  /-- How many of the candidates are degenerate. The count can be set like the rest of a point's
  state, so it need not be one. -/
  degenerate : Int

namespace Point

variable {α : Type} [Scalar α]

/-- A point that no pass has visited. -/
def unvisited (name : String) (rule : Rule α) (position : Vec α) : Point α :=
  { name, rule, position, score := Scalar.lowest, candidates := .empty, stable := false,
    degenerate := 0 }

/-- The cell that holds a point. -/
def cell (decimals : Nat) (p : Point α) : Except (Fault α) Cell := Grid.cell decimals p.position

/-- The candidates of a point as positions. -/
def proposals (decimals : Nat) (p : Point α) : Except (Fault α) (List (Vec α × Option α)) :=
  p.candidates.entries.mapM fun e => do
    let v ← Grid.place decimals e.1
    return (v, e.2)

/-- The point with its candidates evaluated, and the fault that ended the evaluation, if any. -/
def evaluate (decimals : Nat) (places : Places α) (p : Point α) : Point α × Option (Fault α) :=
  let e := p.candidates.evaluate decimals p.rule places
  ({ p with candidates := e.candidates, degenerate := e.degenerate }, e.fault)

/-- Settles a point from its evaluated candidates and tells whether it moved.

The point is stable if its own cell was evaluated and no candidate is better; it then keeps its
place. Otherwise it moves to the best candidate, even if that is worse than where it stood: a cell
that was not proposed is no baseline. -/
def settle (decimals : Nat) (p : Point α) : Point α × Except (Fault α) Bool :=
  match p.cell decimals with
  | .error f => (p, .error f)
  | .ok here =>
    match p.candidates.best with
    | .error f => (p, .error f)
    | .ok (c, s) =>
      match p.candidates.score? here with
      | some current =>
        if s ≤ current then ({ p with stable := true, score := current }, .ok false)
        else move c s
      | none => move c s
where
  /-- The point moved to a cell of the given score. -/
  move (c : Cell) (s : α) : Point α × Except (Fault α) Bool :=
    match Grid.place decimals c with
    | .error f => ({ p with stable := false }, .error f)
    | .ok position => ({ p with position, score := s, stable := false }, .ok true)

end Point
end PointRelaxation
