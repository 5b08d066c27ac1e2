import PointRelaxation.Candidates
import PointRelaxation.Grid
import PointRelaxation.Rule

/-!
# Evaluating candidates and choosing among them

A rule gives each candidate a verdict: a score, or none because the geometry is degenerate there.
The best candidate is the one of highest score, the earliest among equals.
-/

namespace PointRelaxation

/-- What a rule makes of one candidate: a score, or no value because the geometry is degenerate
there. -/
inductive Verdict (α : Type) where
  | scored (s : α)
  | degenerate
deriving Repr, DecidableEq

namespace Verdict

variable {α : Type} [Scalar α]

/-- The score that is recorded. Degenerate candidates are scored lowest. -/
def score : Verdict α → α
  | scored s => s
  | degenerate => Scalar.lowest

def isDegenerate : Verdict α → Bool
  | scored _ => false
  | degenerate => true

/-- A rule's outcome: degenerate geometry and a score that is no number are contained, and every
other fault is kept. -/
def ofOutcome : Except (Fault α) α → Except (Fault α) (Verdict α)
  | .ok s => .ok (if Scalar.IsUndefined s then degenerate else scored s)
  | .error f => if f.isDegenerate then .ok degenerate else .error f

/-- What a rule makes of the position that stands for a cell. -/
def ofCell (decimals : Int) (rule : Rule α) (places : Places α) (c : Cell) :
    Except (Fault α) (Verdict α) := do
  let p ← Grid.place decimals c
  ofOutcome (rule p places)

end Verdict

/-- An evaluated candidate map. If a fault ended the evaluation, the entries from the failing cell
on are as they were before, and the degenerate cells before it are counted. -/
structure Evaluation (α : Type) where
  candidates : Candidates α
  degenerate : Nat
  fault : Option (Fault α)

namespace Candidates

variable {α : Type} [Scalar α]

/-- Writes the score of each entry, up to the first fault. -/
def judge (verdict : Cell → Except (Fault α) (Verdict α)) :
    List (Cell × Option α) → List (Cell × Option α) × Nat × Option (Fault α)
  | [] => ([], 0, none)
  | e :: es =>
    match verdict e.1 with
    | .error f => (e :: es, 0, some f)
    | .ok v =>
      let (es, n, f) := judge verdict es
      ((e.1, some v.score) :: es, if v.isDegenerate then n + 1 else n, f)

@[simp] theorem map_fst_judge (verdict : Cell → Except (Fault α) (Verdict α))
    (es : List (Cell × Option α)) : (judge verdict es).1.map Prod.fst = es.map Prod.fst := by
  induction es with
  | nil => rfl
  | cons e es ih => simp only [judge]; split <;> simp [ih]

/-- The map with every cell scored by a rule. -/
def evaluate (decimals : Int) (rule : Rule α) (places : Places α) (m : Candidates α) :
    Evaluation α :=
  let judged := judge (Verdict.ofCell decimals rule places) m.entries
  ⟨⟨judged.1, by rw [map_fst_judge]; exact m.nodup⟩, judged.2.1, judged.2.2⟩

/-! ## Choosing -/

/-- The score of an entry; an entry must have been evaluated to be chosen from. -/
def evaluated (e : Cell × Option α) : Except (Fault α) (Cell × α) :=
  match e.2 with
  | some s => .ok (e.1, s)
  | none => .error (.unevaluated e.1)

/-- The better of two candidates; the first one unless the second is strictly better. -/
def better (best next : Cell × α) : Cell × α := if next.2 ≤ best.2 then best else next

/-- The better of the best candidate so far and the next entry. -/
def weigh (best : Cell × α) (e : Cell × Option α) : Except (Fault α) (Cell × α) := do
  let next ← evaluated e
  return better best next

/-- The best of entries, the earliest among equals. -/
def bestOf (entries : List (Cell × Option α)) : Except (Fault α) (Cell × α) :=
  match entries with
  | [] => .error .noCandidates
  | e :: es => do
    let first ← evaluated e
    es.foldlM weigh first

def best (m : Candidates α) : Except (Fault α) (Cell × α) := bestOf m.entries

end Candidates
end PointRelaxation
