/-!
# Sources of unit draws

Where the random numbers of a relaxation come from.
-/

namespace PointRelaxation

/-- A source yields the next draw and the source behind it. -/
class Draws (σ : Type) (α : outParam Type) where
  next : σ → α × σ

namespace Draws

variable {σ α : Type} [Draws σ α]

/-- The next `n` draws, in order. -/
def take : Nat → σ → List α × σ
  | 0, s => ([], s)
  | n + 1, s =>
    let (x, s) := next s
    let (xs, s) := take n s
    (x :: xs, s)

end Draws

/-! ## Scripts -/

/-- Draws written down beforehand. When the last of them has been drawn they begin anew. -/
structure Script (α : Type) where
  draws : List α
  /-- The draws still to come before the script begins anew. -/
  rest : List α

namespace Script

variable {α : Type}

def ofList (draws : List α) : Script α := ⟨draws, draws⟩

/-- The next draw of a script; a script without draws yields the default. -/
def next [Inhabited α] (s : Script α) : α × Script α :=
  match s.rest with
  | x :: rest => (x, { s with rest })
  | [] =>
    match s.draws with
    | x :: rest => (x, { s with rest })
    | [] => (default, s)

instance [Inhabited α] : Draws (Script α) α := ⟨Script.next⟩

end Script
end PointRelaxation
