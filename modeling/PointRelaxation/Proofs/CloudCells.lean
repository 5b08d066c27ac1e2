import PointRelaxation.Proofs.Binary64Sums
import PointRelaxation.Proofs.Cloud
import PointRelaxation.Proofs.WordCells
import PointRelaxation.Scene.Point

/-!
# The cells of a cloud are those of the grid

The cells of a cloud are held in signed words, those of the grid are not bounded. As long as the
cell of each candidate fits into words, both are the same, and a candidate that is drawn where a
point stands is the point's own cell. A cell that does not fit is put at the lower end of the words,
where no candidate was drawn.

* `Candidates.snap_eq_cell`: the cell that a candidate is snapped to.
* `Candidates.cloud_on_grid`: the cells of a cloud.
* `Candidates.cloud_beyond_words`: a candidate that leaves the cell of its point.
-/

namespace PointRelaxation

variable {α : Type} [Scalar α]

/-- Both coordinates are finite when they are counted in cells. -/
def Vec.FiniteAt (scale : α) (v : Vec α) : Prop :=
  Scalar.IsFinite (v.x * scale) ∧ Scalar.IsFinite (v.y * scale)

instance (scale : α) (v : Vec α) : Decidable (v.FiniteAt scale) :=
  inferInstanceAs (Decidable (_ ∧ _))

/-- A finite count of cells has an index. -/
lemma Grid.index_of_floor {decimals : ℕ} {scale x : α} {n : ℤ}
    (hscale : (Resolution.ofDecimals decimals).toScalar = .ok scale)
    (hn : Scalar.floor (x * scale + 0.5) = .whole n) : Grid.index decimals x = .ok n := by
  have hfloor : Scalar.floorInt (x * scale + 0.5) = .ok n := by
    unfold Scalar.floorInt
    rw [hn]
  exact bind_eq_ok.2 ⟨x * scale, bind_eq_ok.2 ⟨scale, hscale, rfl⟩, hfloor⟩

namespace Candidates

/-- A whole number that fits into a word is its own place there. -/
lemma wordFloor_of_floor {x : α} {n : ℤ} (h : Scalar.floor x = .whole n)
    (hn : -wordEnd ≤ n ∧ n < wordEnd) : wordFloor x = n := by
  unfold wordFloor
  rw [h]
  exact if_pos hn

variable [FlooredScalar α] {decimals : ℕ} {scale : α}

/-- A candidate is snapped to the cell that holds it, if that fits into words. -/
lemma snap_eq_cell (hscale : (Resolution.ofDecimals decimals).toScalar = .ok scale)
    {center d : Vec α} (hfinite : (center.add d).FiniteAt scale)
    (hword : ∀ c, Grid.cell decimals (center.add d) = .ok c → c.IsWord) :
    Grid.cell decimals (center.add d) = .ok (snap center scale d) := by
  obtain ⟨x, hx⟩ := FlooredScalar.exists_floor hfinite.1
  obtain ⟨y, hy⟩ := FlooredScalar.exists_floor hfinite.2
  have hcell : Grid.cell decimals (center.add d) = .ok ⟨x, y⟩ :=
    bind_eq_ok.2 ⟨x, Grid.index_of_floor hscale hx,
      bind_eq_ok.2 ⟨y, Grid.index_of_floor hscale hy, rfl⟩⟩
  have hsnap : snap center scale d = ⟨x, y⟩ := by
    obtain ⟨hwordx, hwordy⟩ := hword _ hcell
    exact congrArg₂ Cell.mk (wordFloor_of_floor hx hwordx) (wordFloor_of_floor hy hwordy)
  rw [hcell, hsnap]

/-- The cells of a cloud are the cells that hold its candidates, each at its first occurrence, as
long as they fit into words. -/
theorem cloud_on_grid {σ : Type} [Draws σ α]
    (hscale : (Resolution.ofDecimals decimals).toScalar = .ok scale) (center : Vec α)
    (ds : List (Vec α)) (hne : ds ≠ []) (hfinite : ∀ d ∈ ds, (center.add d).FiniteAt scale)
    (hword : ∀ d ∈ ds, ∀ c, Grid.cell decimals (center.add d) = .ok c → c.IsWord) :
    ∃ (m : Candidates α) (cells : List Cell), around decimals center ds = .ok m ∧
      List.Forall₂ (fun d c => Grid.cell decimals (center.add d) = .ok c) ds cells ∧
      m.entries = cells.eraseDups.map (fun c => (c, none)) ∧ m.cells.Nodup ∧
      1 ≤ m.size ∧ m.size ≤ ds.length ∧
      (∀ p : Point α, ∀ d ∈ ds, p.position = center.add d →
        ∃ c ∈ m.cells, p.cell decimals = .ok c) ∧
      ∀ samples radius (s : σ), (offsets samples radius s).1 = ds → ds.length = samples ∧
        (seed decimals center samples radius s).1 = .ok m := by
  obtain ⟨held, hheld⟩ : ∃ held, held = ds.map (snap center scale) := ⟨_, rfl⟩
  have hsnap : ∀ d ∈ ds, Grid.cell decimals (center.add d) = .ok (snap center scale d) :=
    fun d hd => snap_eq_cell hscale (hfinite d hd) (hword d hd)
  have haround : around decimals center ds = .ok (distinct held : Candidates α) := by
    rw [around_eq_distinct, hscale, hheld]
    rfl
  have hmem : ∀ d ∈ ds, snap center scale d ∈ (distinct held : Candidates α).cells := by
    intro d hd
    rw [cells_distinct, List.mem_eraseDups, hheld]
    exact List.mem_map_of_mem hd
  refine ⟨distinct held, held, haround, ?_, rfl, (distinct held).nodup, ?_,
    size_of_around haround, ?_, ?_⟩
  · rw [hheld, List.forall₂_map_right_iff, List.forall₂_same]
    exact hsnap
  · obtain ⟨d, hd⟩ := List.exists_mem_of_ne_nil ds hne
    have hpos := List.length_pos_of_mem (hmem d hd)
    rwa [cells, List.length_map] at hpos
  · intro p d hd hposition
    refine ⟨_, hmem d hd, ?_⟩
    unfold Point.cell
    rw [hposition]
    exact hsnap d hd
  · rintro samples radius s rfl
    exact ⟨length_offsets samples radius s, haround⟩

omit [FlooredScalar α] in
/-- The cells of given displacements are determined. -/
lemma cells_unique {center : Vec α} {ds : List (Vec α)} {cells cells' : List Cell}
    (h : List.Forall₂ (fun d c => Grid.cell decimals (center.add d) = .ok c) ds cells)
    (h' : List.Forall₂ (fun d c => Grid.cell decimals (center.add d) = .ok c) ds cells') :
    cells = cells' :=
  List.right_unique_forall₂' (fun _ _ _ hc hc' => Except.ok.inj (hc.symm.trans hc')) h h'

/-- Three offsets, of which the first and the last end in one cell. -/
def threeOffsets : List (Vec Float) := [⟨0.0, 0.0⟩, ⟨0.25, 0.0⟩, ⟨0.001, 0.0⟩]

/-- The cell that two candidates share is proposed once, in the first place. -/
theorem cloud_of_three_offsets :
    ∃ m, around (2 : ℕ) ⟨0.5, 0.0⟩ threeOffsets = .ok m ∧ m.cells = [⟨50, 0⟩, ⟨75, 0⟩] := by
  have hscale : (Resolution.ofDecimals (2 : ℕ)).toScalar = .ok (100.0 : Float) :=
    eq_ok_of_toOption (by decide +kernel)
  have hgrid : List.Forall₂ (fun d c => Grid.cell (2 : ℕ) (Vec.add ⟨0.5, 0.0⟩ d) = .ok c)
      threeOffsets [⟨50, 0⟩, ⟨75, 0⟩, ⟨50, 0⟩] :=
    .cons (eq_ok_of_toOption (by decide +kernel)) (.cons (eq_ok_of_toOption (by decide +kernel))
      (.cons (eq_ok_of_toOption (by decide +kernel)) .nil))
  have hword : ∀ d ∈ threeOffsets, ∀ c, Grid.cell (2 : ℕ) (Vec.add ⟨0.5, 0.0⟩ d) = .ok c →
      c.IsWord := by
    have hwords : ∀ d ∈ threeOffsets, ∀ c ∈ (Grid.cell (2 : ℕ) (Vec.add ⟨0.5, 0.0⟩ d)).toOption,
        c.IsWord := by decide +kernel
    intro d hd c hc
    exact hwords d hd c (by rw [hc]; rfl)
  obtain ⟨m, held, hm, hheld, hentries, -⟩ := cloud_on_grid (σ := Script Float) hscale ⟨0.5, 0.0⟩
    threeOffsets (List.cons_ne_nil _ _) (by decide +kernel) hword
  obtain rfl := cells_unique hheld hgrid
  refine ⟨m, hm, ?_⟩
  unfold cells
  rw [hentries]
  decide

/-- A candidate that is drawn where a point stands, in a cell that does not fit into a word, is put
into another cell. -/
theorem cloud_beyond_words :
    (¬ ∀ (decimals : ℕ) (scale : Float) (center : Vec Float) (ds : List (Vec Float)),
      (Resolution.ofDecimals decimals).toScalar = .ok scale → ds ≠ [] →
        (∀ d ∈ ds, (center.add d).FiniteAt scale) →
          ∃ m : Candidates Float, around decimals center ds = .ok m ∧
            ∀ d ∈ ds, ∃ c ∈ m.cells, Grid.cell decimals (center.add d) = .ok c) ∧
    (around (2 : ℕ) (⟨1e17, 0.0⟩ : Vec Float) [⟨0.0, 0.0⟩]).toOption.map cells =
      some [⟨-wordEnd, 0⟩] ∧
    Grid.cell (2 : ℕ) ((⟨1e17, 0.0⟩ : Vec Float).add ⟨0.0, 0.0⟩) = .ok ⟨10 ^ 19, 0⟩ := by
  have hscale : (Resolution.ofDecimals (2 : ℕ)).toScalar = .ok (100.0 : Float) :=
    eq_ok_of_toOption (by decide +kernel)
  have haround : (around (2 : ℕ) (⟨1e17, 0.0⟩ : Vec Float) [⟨0.0, 0.0⟩]).toOption.map cells =
      some [⟨-wordEnd, 0⟩] := by
    rw [around_eq_distinct]
    decide +kernel
  have hcell : Grid.cell (2 : ℕ) ((⟨1e17, 0.0⟩ : Vec Float).add ⟨0.0, 0.0⟩) = .ok ⟨10 ^ 19, 0⟩ :=
    eq_ok_of_toOption (by decide +kernel)
  refine ⟨fun h => ?_, haround, hcell⟩
  obtain ⟨m, hm, hcells⟩ := h 2 100.0 ⟨1e17, 0.0⟩ [⟨0.0, 0.0⟩] hscale (List.cons_ne_nil _ _)
    (by decide +kernel)
  obtain ⟨c, hc, hcell'⟩ := hcells _ List.mem_cons_self
  obtain rfl := Except.ok.inj (hcell.symm.trans hcell')
  rw [hm] at haround
  have hm' : m.cells = [⟨-wordEnd, 0⟩] := Option.some.inj haround
  rw [hm'] at hc
  exact absurd hc (by decide)

end Candidates
end PointRelaxation
