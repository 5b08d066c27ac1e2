import Mathlib.Data.List.Nodup
import Mathlib.Data.List.Perm.Subperm
import PointRelaxation.Proofs.Visit

/-!
# The cells of a cloud

* `Candidates.distinctFrom_empty`: the cells of a cloud are those of its offsets, each at its first
  occurrence. The set of the cells seen so far only makes the look-up fast.
* `Visit.make_eq_listed`: a visit with a fresh cloud, without that set.
-/

namespace PointRelaxation

namespace Candidates

lemma distinctFrom_eq_eraseDups (seen : Std.HashSet Cell) (cs : List Cell) :
    distinctFrom seen cs = (cs.filter fun c => !seen.contains c).eraseDups := by
  induction cs generalizing seen with
  | nil => rfl
  | cons c cs ih =>
    by_cases h : seen.contains c
    · rw [distinctFrom, if_pos h, ih, List.filter_cons_of_neg (by simp [h])]
    · rw [distinctFrom, if_neg h, ih, List.filter_cons_of_pos (by simp [h]), List.eraseDups_cons,
        List.filter_filter]
      -- from here on the cell itself is among those seen
      have hseen : ∀ d, (!(seen.insert c).contains d) = (!d == c && !seen.contains d) := by
        intro d
        rw [Std.HashSet.contains_insert, Bool.not_or, Bool.beq_comm]
      simp only [hseen]

/-- A cloud keeps each cell at its first occurrence. -/
lemma distinctFrom_empty (cs : List Cell) : distinctFrom ∅ cs = cs.eraseDups := by
  simp [distinctFrom_eq_eraseDups]

variable {α : Type}

/-- Unevaluated cells, each at its first occurrence. -/
def distinct (cs : List Cell) : Candidates α :=
  ofCells cs.eraseDups (distinctFrom_empty cs ▸ nodup_distinctFrom ∅ cs)

lemma around_eq_distinct [Scalar α] (decimals : ℤ) (center : Vec α) (ds : List (Vec α)) :
    around decimals center ds = (Resolution.ofDecimals decimals).toScalar >>= fun cells =>
      Except.ok (distinct (ds.map (snap center cells))) := by
  unfold around distinct
  simp only [distinctFrom_empty]
  rfl

/-- A cloud that can be made is that of its offsets. -/
lemma around_eq_ok [Scalar α] {decimals : ℤ} {center : Vec α} {ds : List (Vec α)}
    {m : Candidates α} (h : around decimals center ds = .ok m) :
    ∃ cells, m = distinct (ds.map (snap center cells)) := by
  rw [around_eq_distinct] at h
  obtain ⟨cells, -, hm⟩ := bind_eq_ok.1 h
  exact ⟨cells, (Except.ok.inj hm).symm⟩

lemma cells_distinct (cs : List Cell) : (distinct cs : Candidates α).cells = cs.eraseDups := by
  unfold distinct ofCells cells
  rw [List.map_map]
  exact List.map_id _

/-- No cell of a cloud has a score. -/
lemma entries_of_around [Scalar α] {decimals : ℤ} {center : Vec α} {ds : List (Vec α)}
    {m : Candidates α} (h : around decimals center ds = .ok m) :
    m.entries = m.cells.map fun c => (c, none) := by
  obtain ⟨cells, rfl⟩ := around_eq_ok h
  rw [cells_distinct]
  rfl

/-- A cloud has no more cells than offsets. -/
lemma size_of_around [Scalar α] {decimals : ℤ} {center : Vec α} {ds : List (Vec α)}
    {m : Candidates α} (h : around decimals center ds = .ok m) : m.size ≤ ds.length := by
  obtain ⟨cells, rfl⟩ := around_eq_ok h
  have hsub : (distinct (ds.map (snap center cells)) : Candidates α).cells ⊆
      ds.map (snap center cells) := by
    intro c hc
    rw [cells_distinct] at hc
    exact List.mem_eraseDups.1 hc
  have hlength := (List.subperm_of_subset (distinct _).nodup hsub).length_le
  rwa [List.length_map, List.length_map] at hlength

/-- There are as many offsets as samples. -/
lemma length_offsets [Scalar α] {σ : Type} [Draws σ α] (samples : ℕ) (radius : α) (s : σ) :
    (offsets samples radius s).1.length = samples := by
  have htake : ∀ n (s : σ), (Draws.take n s).1.length = n := by
    intro n
    induction n with
    | zero => exact fun _ => rfl
    | succ n ih => exact fun s => congrArg Nat.succ (ih (Draws.next s).2)
  unfold offsets
  rw [List.length_zipWith, htake, htake, Nat.min_self]

end Candidates

namespace Visit

variable {α : Type} [Scalar α] {σ : Type} [Draws σ α]

/-- A visit with a fresh cloud of which every cell is looked up in the list of those before it. -/
def listed (options : Options α) (view : View α) (scene : Scene α) (p : Point α) (s : σ) :
    Visit α × σ :=
  let (ds, s) := Candidates.offsets options.samples options.radius s
  match (Resolution.ofDecimals scene.decimals).toScalar with
  | .error f => (⟨scene, p, .unseeded f⟩, s)
  | .ok cells =>
    (ofCloud view scene p (Candidates.distinct (ds.map (Candidates.snap p.position cells))), s)

lemma make_eq_listed (options : Options α) (view : View α) :
    (make options view : Scene α → Point α → σ → Visit α × σ) = listed options view := by
  funext scene p s
  unfold make listed Candidates.seed
  simp only [Candidates.around_eq_distinct]
  rcases (Resolution.ofDecimals scene.decimals).toScalar with f | cells
  · rfl
  · rfl

end Visit
end PointRelaxation
