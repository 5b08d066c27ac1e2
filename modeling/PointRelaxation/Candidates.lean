import PointRelaxation.Fault

/-!
# Candidate maps

A candidate map holds the cells proposed for a point, in the order in which they were first
proposed, each with its score once it has one. No cell is proposed twice; every operation keeps
that.
-/

namespace PointRelaxation

/-- Cells with their scores. A cell without a score is proposed but not yet evaluated. -/
structure Candidates (α : Type) where
  entries : List (Cell × Option α)
  /-- No cell is proposed twice. -/
  nodup : (entries.map Prod.fst).Nodup

namespace Candidates

variable {α : Type}

def empty : Candidates α := ⟨[], by simp⟩

instance : Inhabited (Candidates α) := ⟨empty⟩

def cells (m : Candidates α) : List Cell := m.entries.map Prod.fst

def size (m : Candidates α) : Nat := m.entries.length

/-- The entry of a cell: nothing if the cell is not proposed. -/
def get? (m : Candidates α) (c : Cell) : Option (Option α) :=
  (m.entries.find? fun e => e.1 == c).map Prod.snd

/-- The score of a cell that is proposed and evaluated. -/
def score? (m : Candidates α) (c : Cell) : Option α := (m.get? c).join

/-- Unevaluated cells. -/
def ofCells (cells : List Cell) (h : cells.Nodup) : Candidates α :=
  ⟨cells.map fun c => (c, none), by rw [List.map_map]; exact (List.map_id cells).symm ▸ h⟩

/-- Writes an entry in its place, or behind all others if its cell is new. -/
def put (c : Cell) (s : Option α) : List (Cell × Option α) → List (Cell × Option α)
  | [] => [(c, s)]
  | e :: es => if e.1 = c then (c, s) :: es else e :: put c s es

theorem map_fst_put (c : Cell) (s : Option α) (es : List (Cell × Option α)) :
    (put c s es).map Prod.fst =
      if c ∈ es.map Prod.fst then es.map Prod.fst else es.map Prod.fst ++ [c] := by
  induction es with
  | nil => rfl
  | cons e es ih =>
    by_cases h : e.1 = c
    · simp [put, h]
    · have h' : ¬ c = e.1 := fun hc => h hc.symm
      simp only [put, h, if_false, List.map_cons, ih, List.mem_cons, h', false_or]
      split <;> rfl

theorem nodup_put {c : Cell} {s : Option α} {es : List (Cell × Option α)}
    (h : (es.map Prod.fst).Nodup) : ((put c s es).map Prod.fst).Nodup := by
  rw [map_fst_put]
  split
  · exact h
  · rename_i hc
    rw [List.nodup_append]
    exact ⟨h, by simp, fun a ha b hb hab => hc (by simp_all)⟩

/-- The map with a score written at a cell. -/
def insert (m : Candidates α) (c : Cell) (s : Option α) : Candidates α :=
  ⟨put c s m.entries, nodup_put m.nodup⟩

/-- The map of entries given in order: a cell given again keeps its place and takes the later
score. -/
def ofEntries (es : List (Cell × Option α)) : Candidates α :=
  es.foldl (fun m e => m.insert e.1 e.2) empty

end Candidates
end PointRelaxation
