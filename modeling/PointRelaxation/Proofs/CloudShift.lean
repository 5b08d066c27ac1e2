import PointRelaxation.Proofs.CloudCells
import PointRelaxation.Proofs.Exact
import PointRelaxation.Proofs.FieldArithmetic

/-!
# Clouds around different centres

In exact arithmetic the cloud around a cell is the cloud around the origin, shifted: the nearest
cell commutes with shifts by whole cells, and so does leaving out the cells that were there before.
No candidate is further from its centre than the radius and half a cell, and one that is thrown less
than half a cell is the centre itself. Words set a limit to this as well.

* `ExactScalar`: scalars that are rounded by their floor and converted exactly.
* `Grid.nearest_add`: the nearest cell commutes with shifts.
* `Candidates.cloud_shift`: the cloud around a cell.
* `Candidates.cloud_left_behind`: a cloud that does not come along to a cell beyond the words.
-/

namespace PointRelaxation

/-! ## Exact arithmetic -/

/-- Scalars of an ordered field with a floor, to which whole numbers and their ratios are converted
exactly. -/
class ExactScalar (α : Type) [FieldScalar α] [FloorRing α] : Prop where
  ofInt?_eq (n : ℤ) : Scalar.ofInt? n = some (n : α)
  ratio?_eq (n : ℤ) (d : ℕ) : Scalar.ratio? n d = some (n / d : α)
  floor_eq (x : α) : Scalar.floor x = .whole ⌊x⌋

instance : ExactScalar ℝ where
  ofInt?_eq _ := rfl
  ratio?_eq _ _ := rfl
  floor_eq _ := rfl

namespace Exact

instance : Field Exact := inferInstanceAs (Field ℚ)

instance : LinearOrder Exact := inferInstanceAs (LinearOrder ℚ)

instance : IsStrictOrderedRing Exact := inferInstanceAs (IsStrictOrderedRing ℚ)

instance : FloorRing Exact := inferInstanceAs (FloorRing ℚ)

instance : FieldScalar Exact :=
  { (inferInstance : Scalar Exact), (inferInstance : Field Exact),
    (inferInstance : LinearOrder Exact), (inferInstance : IsStrictOrderedRing Exact) with
    abs_eq := fun _ => rfl
    ofScientific_eq := fun _ _ _ => (Rat.cast_id _).symm }

instance : ExactScalar Exact where
  ofInt?_eq _ := rfl
  ratio?_eq _ _ := rfl
  floor_eq _ := rfl

end Exact

variable {α : Type} [FieldScalar α]

namespace Scalar

lemma isFinite (x : α) : IsFinite x :=
  not_not.2 (le_refl (x - x))

end Scalar

/-! ## Throws -/

namespace Candidates

/-- What is drawn for a candidate: a direction, and the draw for the distance. -/
structure Throw (α : Type) where
  direction : Vec α
  draw : α

namespace Throw

/-- The displacement of a candidate from its centre. -/
def offset (radius : α) (t : Throw α) : Vec α :=
  ⟨t.direction.x * (t.draw * t.draw * radius), t.direction.y * (t.draw * t.draw * radius)⟩

/-- The components of the direction are at most one, and the draw is from the unit interval. -/
structure IsUnit (t : Throw α) : Prop where
  base_le : |t.direction.x| ≤ 1
  height_le : |t.direction.y| ≤ 1
  draw_nonneg : 0 ≤ t.draw
  draw_lt : t.draw < 1

instance (t : Throw α) : Decidable t.IsUnit :=
  decidable_of_iff (|t.direction.x| ≤ 1 ∧ |t.direction.y| ≤ 1 ∧ 0 ≤ t.draw ∧ t.draw < 1)
    ⟨fun ⟨hbase, hheight, hnonneg, hlt⟩ => ⟨hbase, hheight, hnonneg, hlt⟩,
      fun h => ⟨h.base_le, h.height_le, h.draw_nonneg, h.draw_lt⟩⟩

variable {t : Throw α} {radius : α}

/-- Along each axis a candidate is no further from its centre than it was thrown. -/
lemma abs_offset_le (ht : t.IsUnit) (hradius : 0 < radius) :
    |(t.offset radius).x| ≤ t.draw * t.draw * radius ∧
      |(t.offset radius).y| ≤ t.draw * t.draw * radius := by
  have hlength : 0 ≤ t.draw * t.draw * radius :=
    mul_nonneg (mul_self_nonneg t.draw) hradius.le
  have hpart : ∀ a : α, |a| ≤ 1 → |a * (t.draw * t.draw * radius)| ≤ t.draw * t.draw * radius := by
    intro a ha
    rw [abs_mul, abs_of_nonneg hlength]
    exact mul_le_of_le_one_left hlength ha
  exact ⟨hpart _ ht.base_le, hpart _ ht.height_le⟩

lemma length_le (ht : t.IsUnit) (hradius : 0 < radius) : t.draw * t.draw * radius ≤ radius :=
  mul_le_of_le_one_left hradius.le (mul_le_one₀ ht.draw_lt.le ht.draw_nonneg ht.draw_lt.le)

end Throw

/-- The throws of as many candidates as samples: first the draws for all directions, then those for
all distances. -/
def throws {σ : Type} [Draws σ α] (samples : ℕ) (s : σ) : List (Throw α) :=
  let (us, s) := Draws.take samples s
  let (vs, _) := Draws.take samples s
  let direction u := ⟨Scalar.cos (u * 2.0 * Scalar.pi), Scalar.sin (u * 2.0 * Scalar.pi)⟩
  List.zipWith (fun u v => ⟨direction u, v⟩) us vs

lemma offsets_eq_throws {σ : Type} [Draws σ α] (samples : ℕ) (radius : α) (s : σ) :
    (offsets samples radius s).1 = (throws samples s).map (Throw.offset radius) := by
  unfold offsets throws
  rw [List.map_zipWith]
  rfl

end Candidates

variable [FloorRing α]

instance [ExactScalar α] : FlooredScalar α where
  exists_floor {x} _ := ⟨_, ExactScalar.floor_eq (x + 0.5)⟩

/-! ## The nearest cell -/

namespace Grid

/-- The nearest whole count of cells, a half counted upwards. -/
def nearest (decimals : ℕ) (x : α) : ℤ := ⌊x * (10 ^ decimals : ℕ) + 0.5⌋

/-- The cell of a position. -/
def nearestCell (decimals : ℕ) (v : Vec α) : Cell := ⟨nearest decimals v.x, nearest decimals v.y⟩

variable {decimals : ℕ} {x r : α}

/-- The nearest cell commutes with shifts by whole cells. -/
lemma nearest_add (n : ℤ) (x : α) :
    nearest decimals (n / (10 ^ decimals : ℕ) + x) = n + nearest decimals x := by
  have hscale : ((10 ^ decimals : ℕ) : α) ≠ 0 := by positivity
  unfold nearest
  rw [add_mul, div_mul_cancel₀ _ hscale, add_assoc, Int.floor_intCast_add]

omit [FloorRing α] in
lemma abs_mul_cells_le (decimals : ℕ) (h : |x| ≤ r) :
    |x * (10 ^ decimals : ℕ)| ≤ r * (10 ^ decimals : ℕ) := by
  rw [abs_mul, Nat.abs_cast]
  exact mul_le_mul_of_nonneg_right h (Nat.cast_nonneg _)

/-- The nearest cell is off by half a cell at most. -/
lemma abs_nearest_le (h : |x| ≤ r) :
    |(nearest decimals x : α)| ≤ r * (10 ^ decimals : ℕ) + 1 / 2 := by
  obtain ⟨hlow, hhigh⟩ := abs_le.1 (abs_mul_cells_le decimals h)
  have hfloor := Int.floor_le (x * (10 ^ decimals : ℕ) + 1 / 2)
  have hlt := Int.lt_floor_add_one (x * (10 ^ decimals : ℕ) + 1 / 2)
  unfold nearest
  rw [Scalar.half_literal, abs_le]
  constructor
  · linarith
  · linarith

/-- What is off by less than half a cell is in the cell at the origin. -/
lemma nearest_eq_zero (h : |x| ≤ r) (hr : r * (10 ^ decimals : ℕ) < 1 / 2) :
    nearest decimals x = 0 := by
  obtain ⟨hlow, hhigh⟩ := abs_le.1 (abs_mul_cells_le decimals h)
  unfold nearest
  rw [Scalar.half_literal, Int.floor_eq_zero_iff, Set.mem_Ico]
  constructor
  · linarith
  · linarith

variable [ExactScalar α]

lemma toScalar_exact (decimals : ℕ) :
    (Resolution.ofDecimals decimals).toScalar = .ok ((10 ^ decimals : ℕ) : α) := by
  show Scalar.ofInt ((10 ^ decimals : ℕ) : ℤ) = _
  unfold Scalar.ofInt
  rw [ExactScalar.ofInt?_eq, Int.cast_natCast]

lemma index_eq_nearest (decimals : ℕ) (x : α) : index decimals x = .ok (nearest decimals x) := by
  refine index_of_floor (toScalar_exact decimals) ?_
  rw [ExactScalar.floor_eq]
  rfl

lemma cell_exact (decimals : ℕ) (v : Vec α) : cell decimals v = .ok (nearestCell decimals v) :=
  bind_eq_ok.2 ⟨_, index_eq_nearest decimals v.x,
    bind_eq_ok.2 ⟨_, index_eq_nearest decimals v.y, rfl⟩⟩

lemma coordinate_exact (decimals : ℕ) (n : ℤ) :
    coordinate decimals n = .ok (n / (10 ^ decimals : ℕ) : α) := by
  show Scalar.ratio n (10 ^ decimals) = _
  unfold Scalar.ratio
  rw [ExactScalar.ratio?_eq]

end Grid

/-! ## Shifts -/

namespace Cell

/-- The cell that is as far from `k` as `c` is from the origin. -/
def shift (k c : Cell) : Cell := ⟨k.x + c.x, k.y + c.y⟩

lemma shift_injective (k : Cell) : Function.Injective k.shift := by
  intro c d h
  obtain ⟨hx, hy⟩ := Cell.mk.inj h
  exact congrArg₂ Cell.mk (add_left_cancel hx) (add_left_cancel hy)

/-- The position that stands for a cell, as exact arithmetic has it. -/
def position (decimals : ℕ) (k : Cell) : Vec α :=
  ⟨k.x / (10 ^ decimals : ℕ), k.y / (10 ^ decimals : ℕ)⟩

end Cell

/-- An injection keeps first occurrences first occurrences. -/
lemma eraseDups_map_of_injective {β γ : Type} [DecidableEq β] [DecidableEq γ] {f : β → γ}
    (hf : Function.Injective f) (xs : List β) :
    (xs.map f).eraseDups = xs.eraseDups.map f := by
  -- on the length: what the first element is struck from gets shorter, but is not the tail
  induction hn : xs.length using Nat.strong_induction_on generalizing xs with
  | _ n ih =>
    cases xs with
    | nil => rfl
    | cons x xs =>
      have hrest : (xs.filter fun y => !y == x).length < n := by
        rw [← hn, List.length_cons]
        exact Nat.lt_succ_of_le (List.length_filter_le _ _)
      have hfilter : ((fun y => !y == f x) ∘ f) = fun y => !y == x := by
        funext y
        simp [hf.eq_iff, beq_eq_decide]
      rw [List.map_cons, List.eraseDups_cons, List.eraseDups_cons, List.map_cons, List.filter_map,
        hfilter, ih _ hrest _ rfl]

namespace Grid

variable [ExactScalar α] {decimals : ℕ}

/-- In exact arithmetic a position stands for every cell. -/
lemma place_exact (decimals : ℕ) (k : Cell) :
    place decimals k = .ok (k.position decimals : Vec α) :=
  bind_eq_ok.2 ⟨_, coordinate_exact decimals k.x,
    bind_eq_ok.2 ⟨_, coordinate_exact decimals k.y, rfl⟩⟩

lemma cell_zero_add (d : Vec α) :
    cell decimals (Vec.zero.add d) = .ok (nearestCell decimals d) := by
  have hzero : Vec.zero.add d = d := by
    unfold Vec.zero Vec.add
    rw [Scalar.zero_literal, zero_add, zero_add]
  rw [hzero, cell_exact]

/-- The cell of a displacement from the position of a cell is that of the displacement from the
origin, shifted. -/
lemma cell_position_add (k : Cell) (d : Vec α) :
    cell decimals ((k.position decimals).add d) = .ok (k.shift (nearestCell decimals d)) := by
  rw [cell_exact]
  exact congrArg Except.ok (congrArg₂ Cell.mk (nearest_add k.x d.x) (nearest_add k.y d.y))

/-- The position of a cell lies in it. -/
lemma cell_position (k : Cell) : cell decimals (k.position decimals : Vec α) = .ok k := by
  have hzero : nearest decimals (0 : α) = 0 := by
    refine nearest_eq_zero abs_zero.le ?_
    rw [zero_mul]
    exact one_half_pos
  have hcoordinate : ∀ n : ℤ, nearest decimals (n / (10 ^ decimals : ℕ) : α) = n := by
    intro n
    rw [← add_zero (n / (10 ^ decimals : ℕ) : α), nearest_add, hzero, add_zero]
  rw [cell_exact]
  exact congrArg Except.ok (congrArg₂ Cell.mk (hcoordinate k.x) (hcoordinate k.y))

end Grid

namespace Candidates

/-! ## Clouds -/

/-- Each of the given displacements leads from a centre to a cell that fits into words. -/
def InWords (decimals : ℕ) (center : Vec α) (ds : List (Vec α)) : Prop :=
  ∀ d ∈ ds, ∀ c, Grid.cell decimals (center.add d) = .ok c → c.IsWord

/-- The cloud of the given displacements from a centre, as exact arithmetic has it. -/
def cloud (decimals : ℕ) (center : Vec α) (ds : List (Vec α)) : Candidates α :=
  distinct (ds.map (snap center ((10 ^ decimals : ℕ) : α)))

variable {decimals : ℕ} {center d : Vec α} {ds : List (Vec α)} {k c : Cell} {t : Throw α}
  {radius : α}

/-- The cell of a throw is no further from that of the centre than the radius and half a cell. -/
lemma abs_nearest_offset_le (decimals : ℕ) (ht : t.IsUnit) (hradius : 0 < radius) :
    |(Grid.nearest decimals (t.offset radius).x : α)| ≤ radius * (10 ^ decimals : ℕ) + 1 / 2 ∧
      |(Grid.nearest decimals (t.offset radius).y : α)| ≤ radius * (10 ^ decimals : ℕ) + 1 / 2 := by
  obtain ⟨hx, hy⟩ := Throw.abs_offset_le ht hradius
  have hlength := Throw.length_le ht hradius
  exact ⟨Grid.abs_nearest_le (hx.trans hlength), Grid.abs_nearest_le (hy.trans hlength)⟩

variable [ExactScalar α]

/-- A candidate of which the cell fits into words is snapped to it. -/
lemma snap_of_cell (hcell : Grid.cell decimals (center.add d) = .ok c) (hc : c.IsWord) :
    snap center ((10 ^ decimals : ℕ) : α) d = c := by
  have hword : ∀ c', Grid.cell decimals (center.add d) = .ok c' → c'.IsWord := by
    intro c' hc'
    rwa [← Except.ok.inj (hcell.symm.trans hc')]
  have hsnap := snap_eq_cell (Grid.toScalar_exact decimals)
    ⟨Scalar.isFinite _, Scalar.isFinite _⟩ hword
  exact Except.ok.inj (hsnap.symm.trans hcell)

/-- In exact arithmetic there is a cloud around every centre. -/
lemma around_exact (decimals : ℕ) (center : Vec α) (ds : List (Vec α)) :
    around decimals center ds = .ok (cloud decimals center ds) := by
  rw [around_eq_distinct, Grid.toScalar_exact]
  rfl

/-- The cells of a cloud that fits into words, each at its first occurrence. -/
lemma cells_cloud {f : Vec α → Cell} (h : InWords decimals center ds)
    (hf : ∀ d, Grid.cell decimals (center.add d) = .ok (f d)) :
    (cloud decimals center ds).cells = (ds.map f).eraseDups := by
  have hsnap : ds.map (snap center ((10 ^ decimals : ℕ) : α)) = ds.map f :=
    List.map_congr_left fun d hd => snap_of_cell (hf d) (h d hd _ (hf d))
  unfold cloud
  rw [cells_distinct, hsnap]

/-- The cells of a cloud around a cell are those of the displacements, shifted. -/
lemma cells_cloud_position (h : InWords decimals (k.position decimals) ds) :
    (cloud decimals (k.position decimals) ds).cells =
      (ds.map (Grid.nearestCell decimals)).eraseDups.map k.shift := by
  rw [cells_cloud h (Grid.cell_position_add k), ← eraseDups_map_of_injective k.shift_injective,
    List.map_map]
  rfl

/-- A throw of less than half a cell stays in the cell of the centre. -/
lemma cell_of_short (ht : t.IsUnit) (hradius : 0 < radius)
    (hshort : t.draw * t.draw * radius * (10 ^ decimals : ℕ) < 1 / 2) :
    Grid.cell decimals ((k.position decimals).add (t.offset radius)) = .ok k := by
  obtain ⟨hx, hy⟩ := Throw.abs_offset_le ht hradius
  have hcell : Grid.nearestCell decimals (t.offset radius) = ⟨0, 0⟩ :=
    congrArg₂ Cell.mk (Grid.nearest_eq_zero hx hshort) (Grid.nearest_eq_zero hy hshort)
  rw [Grid.cell_position_add, hcell]
  exact congrArg Except.ok (congrArg₂ Cell.mk (add_zero k.x) (add_zero k.y))

variable {ts : List (Throw α)}

/-- Along each axis no cell of a cloud is further from that of the centre than the radius and half a
cell. -/
lemma abs_sub_le_of_mem_cloud (hts : ∀ t ∈ ts, t.IsUnit) (hradius : 0 < radius)
    (h : InWords decimals (k.position decimals) (ts.map (Throw.offset radius)))
    (hc : c ∈ (cloud decimals (k.position decimals) (ts.map (Throw.offset radius))).cells) :
    |((c.x - k.x : ℤ) : α)| ≤ radius * (10 ^ decimals : ℕ) + 1 / 2 ∧
      |((c.y - k.y : ℤ) : α)| ≤ radius * (10 ^ decimals : ℕ) + 1 / 2 := by
  rw [cells_cloud_position h, List.mem_map] at hc
  obtain ⟨c, hc, rfl⟩ := hc
  rw [List.mem_eraseDups, List.mem_map] at hc
  obtain ⟨d, hd, rfl⟩ := hc
  obtain ⟨t, ht, rfl⟩ := List.mem_map.1 hd
  have hlocal := abs_nearest_offset_le decimals (hts t ht) hradius
  unfold Cell.shift Grid.nearestCell
  rwa [add_sub_cancel_left, add_sub_cancel_left]

/-- A throw of less than half a cell brings the cell of the centre into a cloud. -/
lemma mem_cloud_of_short (hts : ∀ t ∈ ts, t.IsUnit) (hradius : 0 < radius) (hk : k.IsWord)
    (ht : t ∈ ts) (hshort : t.draw * t.draw * radius * (10 ^ decimals : ℕ) < 1 / 2) :
    k ∈ (cloud decimals (k.position decimals) (ts.map (Throw.offset radius))).cells := by
  have hcell := cell_of_short (k := k) (hts t ht) hradius hshort
  unfold cloud
  rw [cells_distinct, List.mem_eraseDups]
  exact List.mem_map.2 ⟨_, List.mem_map_of_mem ht, snap_of_cell hcell hk⟩

/-- A cloud of throws around the position of a cell. Around the origin the same throws make the same
cloud, but for the shift: they fall into cells that are shifted as well, those that fall into one
cell there fall into one cell here, and the cells come in the same order. Along each axis no cell is
further from the centre than the radius and half a cell. A throw of less than half a cell falls into
the cell of the centre, which is a baseline for a point there. -/
theorem cloud_shift {σ : Type} [Draws σ α] (decimals : ℕ) {radius : α} (hradius : 0 < radius)
    (ts : List (Throw α)) (hts : ∀ t ∈ ts, t.IsUnit) (k : Cell) :
    let scale : α := (10 ^ decimals : ℕ)
    let ds := ts.map (Throw.offset radius)
    ∃ (center : Vec α) (cloud origin : Candidates α), Grid.place decimals k = .ok center ∧
      around decimals center ds = .ok cloud ∧ around decimals Vec.zero ds = .ok origin ∧
      (∀ samples (s : σ), throws samples s = ts →
        (seed decimals center samples radius s).1 = .ok cloud ∧
        (seed decimals Vec.zero samples radius s).1 = .ok origin) ∧
      (InWords decimals center ds → InWords decimals Vec.zero ds → ∃ held : List Cell,
        List.Forall₂ (fun d c => Grid.cell decimals (Vec.zero.add d) = .ok c) ds held ∧
        List.Forall₂ (fun d c => Grid.cell decimals (center.add d) = .ok (k.shift c)) ds held ∧
        origin.cells = held.eraseDups ∧ cloud.cells = origin.cells.map k.shift ∧
        cloud.size = origin.size) ∧
      (InWords decimals center ds → ∀ c ∈ cloud.cells,
        |((c.x - k.x : ℤ) : α)| ≤ radius * scale + 1 / 2 ∧
        |((c.y - k.y : ℤ) : α)| ≤ radius * scale + 1 / 2) ∧
      (k.IsWord → (∃ t ∈ ts, t.draw * t.draw * radius * scale < 1 / 2) →
        k ∈ cloud.cells ∧ (∀ p : Point α, p.position = center → p.cell decimals = .ok k) ∧
        ∀ rule places, (cloud.evaluate decimals rule places).fault = none →
          ∃ s, (cloud.evaluate decimals rule places).candidates.score? k = some s) := by
  intro scale ds
  let center : Vec α := k.position decimals
  have hcloud := around_exact decimals center ds
  have horigin := around_exact decimals Vec.zero ds
  refine ⟨center, _, _, Grid.place_exact decimals k, hcloud, horigin, ?_, ?_, ?_, ?_⟩
  · rintro samples s rfl
    have hoffsets : (offsets samples radius s).1 = ds := offsets_eq_throws samples radius s
    rw [← hoffsets] at hcloud horigin ⊢
    exact ⟨hcloud, horigin⟩
  · intro hwords hwords'
    have hcells := cells_cloud hwords' Grid.cell_zero_add
    have hshift := (cells_cloud_position hwords).trans (congrArg (List.map k.shift) hcells.symm)
    refine ⟨ds.map (Grid.nearestCell decimals), ?_, ?_, hcells, hshift, ?_⟩
    · rw [List.forall₂_map_right_iff, List.forall₂_same]
      exact fun d _ => Grid.cell_zero_add d
    · rw [List.forall₂_map_right_iff, List.forall₂_same]
      exact fun d _ => Grid.cell_position_add k d
    · simpa [cells, size] using congrArg List.length hshift
  · exact fun hwords c hc => abs_sub_le_of_mem_cloud hts hradius hwords hc
  · rintro hk ⟨t, ht, hshort⟩
    have hmem := mem_cloud_of_short hts hradius hk ht hshort
    refine ⟨hmem, ?_, ?_⟩
    · intro p hp
      unfold Point.cell
      rw [hp]
      exact Grid.cell_position k
    · intro rule places hfault
      rw [← cells_evaluate decimals rule places] at hmem
      obtain ⟨⟨c, s⟩, he, rfl⟩ := List.mem_map.1 hmem
      obtain ⟨v, -, rfl⟩ := evaluate_scored hfault _ he
      exact ⟨v.score, score?_eq_some_iff.2 he⟩

/-- Four throws, of which the first and the last stay in the cell of the centre. -/
def fourThrows : List (Throw Exact) :=
  [⟨⟨1, 0⟩, 0⟩, ⟨⟨1, 0⟩, 0.5⟩, ⟨⟨0, -1⟩, 0.5⟩, ⟨⟨0.6, 0.8⟩, 0.25⟩]

/-- The cloud of the four throws around a cell. -/
theorem cloud_shift_four_throws :
    ∃ (center : Vec Exact) (cloud : Candidates Exact),
      Grid.place (0 : ℕ) ⟨3, -2⟩ = .ok center ∧
      around (0 : ℕ) center (fourThrows.map (Throw.offset 4)) = .ok cloud ∧
      cloud.cells = [⟨3, -2⟩, ⟨4, -2⟩, ⟨3, -3⟩] := by
  have hradius : (0 : Exact) < 4 := by decide +kernel
  obtain ⟨center, cloud, origin, hcenter, hcloud, -, -, hshift, -, -⟩ := cloud_shift
    (σ := Script Exact) 0 hradius fourThrows (by decide +kernel) ⟨3, -2⟩
  refine ⟨center, cloud, hcenter, hcloud, ?_⟩
  have hplace : Grid.place (0 : ℕ) ⟨3, -2⟩ = .ok (⟨3, -2⟩ : Vec Exact) :=
    eq_ok_of_toOption (by decide +kernel)
  obtain rfl := Except.ok.inj (hplace.symm.trans hcenter)
  have hwords : ∀ center ∈ [(⟨3, -2⟩ : Vec Exact), Vec.zero],
      InWords 0 center (fourThrows.map (Throw.offset 4)) := by
    have hall : ∀ center ∈ [(⟨3, -2⟩ : Vec Exact), Vec.zero],
        ∀ d ∈ fourThrows.map (Throw.offset 4),
        ∀ c ∈ (Grid.cell (0 : ℕ) (center.add d)).toOption, c.IsWord := by decide +kernel
    intro center hcenter d hd c hc
    exact hall center hcenter d hd c (by rw [hc]; rfl)
  obtain ⟨held, hheld, -, horigin, hcells, -⟩ := hshift (hwords _ (by simp)) (hwords _ (by simp))
  have hgrid : List.Forall₂ (fun d c => Grid.cell (0 : ℕ) (Vec.zero.add d) = .ok c)
      (fourThrows.map (Throw.offset 4)) [⟨0, 0⟩, ⟨1, 0⟩, ⟨0, -1⟩, ⟨0, 0⟩] :=
    .cons (eq_ok_of_toOption (by decide +kernel)) (.cons (eq_ok_of_toOption (by decide +kernel))
      (.cons (eq_ok_of_toOption (by decide +kernel))
        (.cons (eq_ok_of_toOption (by decide +kernel)) .nil)))
  obtain rfl := cells_unique hheld hgrid
  rw [hcells, horigin]
  decide

/-- A throw of no length around a cell that does not fit into words. Around the origin it falls into
the cell of the centre, here it does not. -/
theorem cloud_left_behind :
    (¬ ∀ (decimals : ℕ) (radius : Exact) (ts : List (Throw Exact)) (k : Cell) (center : Vec Exact)
      (cloud origin : Candidates Exact), 0 < radius → (∀ t ∈ ts, t.IsUnit) →
      Grid.place decimals k = .ok center →
      around decimals center (ts.map (Throw.offset radius)) = .ok cloud →
      around decimals Vec.zero (ts.map (Throw.offset radius)) = .ok origin →
        cloud.cells = origin.cells.map k.shift) ∧
    ¬ ∀ (decimals : ℕ) (radius : Exact) (ts : List (Throw Exact)) (k : Cell) (center : Vec Exact)
      (cloud : Candidates Exact), 0 < radius → (∀ t ∈ ts, t.IsUnit) →
      Grid.place decimals k = .ok center →
      around decimals center (ts.map (Throw.offset radius)) = .ok cloud →
      (∃ t ∈ ts, t.draw * t.draw * radius * (10 ^ decimals : ℕ) < 1 / 2) → k ∈ cloud.cells := by
  let k : Cell := ⟨0, 10 ^ 19⟩
  let ts : List (Throw Exact) := [⟨⟨1, 0⟩, 0⟩]
  have hunit : ∀ t ∈ ts, t.IsUnit := by decide +kernel
  have hcloud := around_exact 2 (k.position 2) (ts.map (Throw.offset 1))
  have hcells : (cloud 2 (k.position 2) (ts.map (Throw.offset 1))).cells = [⟨0, -wordEnd⟩] := by
    decide +kernel
  constructor
  · intro h
    have hshift := h 2 1 ts k _ _ _ one_pos hunit (Grid.place_exact 2 k) hcloud
      (around_exact 2 Vec.zero _)
    rw [hcells] at hshift
    exact absurd hshift (by decide +kernel)
  · intro h
    have hmem := h 2 1 ts k _ _ one_pos hunit (Grid.place_exact 2 k) hcloud (by decide +kernel)
    rw [hcells] at hmem
    exact absurd hmem (by decide)

end Candidates
end PointRelaxation
