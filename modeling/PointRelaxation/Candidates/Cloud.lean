import PointRelaxation.Candidates
import PointRelaxation.Draws
import PointRelaxation.Grid
import Std.Data.HashSet

/-!
# Candidate clouds

A cloud is the cells around a point that a pass proposes for it. The offsets from the centre are
isotropic. Their length is a squared draw times the radius, which packs most candidates close to the
centre and still proposes the occasional long jump.
-/

namespace PointRelaxation.Candidates

variable {α : Type} [Scalar α]

/-! ## Offsets -/

/-- The offset of two draws, the first for its angle and the second for its length. -/
def offset (radius u v : α) : Vec α :=
  let angle := u * 2.0 * Scalar.pi
  let length := v * v * radius
  ⟨Scalar.cos angle * length, Scalar.sin angle * length⟩

/-- As many offsets as samples: first the draws for all angles, then those for all lengths. -/
def offsets {σ : Type} [Draws σ α] (samples : Nat) (radius : α) (s : σ) : List (Vec α) × σ :=
  let (us, s) := Draws.take samples s
  let (vs, s) := Draws.take samples s
  (List.zipWith (offset radius) us vs, s)

/-! ## Cells -/

/-- The signed words of 64 bits are the whole numbers from `-wordEnd` to below `wordEnd`. -/
def wordEnd : Int := 0x8000000000000000

/-- The place of a coordinate along an axis, in a signed word of 64 bits. What has no place in the
word is put at its lower end. -/
def wordFloor (x : α) : Int :=
  match Scalar.floor x with
  | .whole n => if -wordEnd ≤ n ∧ n < wordEnd then n else -wordEnd
  | _ => -wordEnd

/-- The cell that a candidate at `center + d` is snapped to. -/
def snap (center : Vec α) (cells : α) (d : Vec α) : Cell :=
  ⟨wordFloor ((center.x + d.x) * cells + 0.5), wordFloor ((center.y + d.y) * cells + 0.5)⟩

/-- The cells that are not `seen`, each at its first occurrence. -/
def distinctFrom (seen : Std.HashSet Cell) : List Cell → List Cell
  | [] => []
  | c :: cs =>
    if seen.contains c then distinctFrom seen cs else c :: distinctFrom (seen.insert c) cs

theorem mem_distinctFrom {seen : Std.HashSet Cell} {cs : List Cell} {c : Cell} :
    c ∈ distinctFrom seen cs ↔ c ∈ cs ∧ c ∉ seen := by
  induction cs generalizing seen with
  | nil => simp [distinctFrom]
  | cons d ds ih =>
    simp only [distinctFrom, ← Std.HashSet.mem_iff_contains]
    split
    · rename_i h
      rw [ih, List.mem_cons]
      exact ⟨fun hc => ⟨.inr hc.1, hc.2⟩,
        fun hc => ⟨hc.1.resolve_left (fun e => hc.2 (e ▸ h)), hc.2⟩⟩
    · rename_i h
      rw [List.mem_cons, ih, List.mem_cons, Std.HashSet.mem_insert]
      by_cases e : c = d
      · simp [e, h]
      · simp [e, Ne.symm e]

theorem nodup_distinctFrom (seen : Std.HashSet Cell) (cs : List Cell) :
    (distinctFrom seen cs).Nodup := by
  induction cs generalizing seen with
  | nil => exact List.nodup_nil
  | cons d ds ih =>
    simp only [distinctFrom]
    split
    · exact ih seen
    · rw [List.nodup_cons, mem_distinctFrom]
      exact ⟨fun h => h.2 Std.HashSet.mem_insert_self, ih _⟩

/-- The candidates at the given offsets from a centre. Those in one cell coalesce, and the cells
keep the order in which they were first drawn. -/
def around (decimals : Int) (center : Vec α) (ds : List (Vec α)) :
    Except (Fault α) (Candidates α) := do
  let cells ← (Resolution.ofDecimals decimals).toScalar
  return ofCells _ (nodup_distinctFrom ∅ (ds.map (snap center cells)))

/-- A fresh cloud around a centre. -/
def seed {σ : Type} [Draws σ α] (decimals : Int) (center : Vec α) (samples : Nat) (radius : α)
    (s : σ) : Except (Fault α) (Candidates α) × σ :=
  let (ds, s) := offsets samples radius s
  (around decimals center ds, s)

/-- A count of samples as it is asked for. -/
def countOf (samples : Int) : Except (Fault α) Nat :=
  if samples < 0 then .error .negativeCount else .ok samples.toNat

end PointRelaxation.Candidates
