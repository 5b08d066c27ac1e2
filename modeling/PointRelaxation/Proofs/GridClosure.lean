import PointRelaxation.Proofs.Binary64Arithmetic
import PointRelaxation.Proofs.Maximum
import PointRelaxation.Proofs.WordCells

/-!
# Positions stay on the grid

A registration rounds the position it is given, and a visit moves its point only to the position
that stands for a cell. So every point of a scene stands where some cell is, whatever registrations,
passes and invalidations led there. Near the origin that cell is the one that holds the point,
though the arithmetic rounds.

* `Arises`: the scenes that come about so. A fault may have ended a pass.
* `Arises.onGrid`: each point stands where some cell is, in whatever arithmetic.
* `positions_on_grid`: in rounded arithmetic it stands in that cell, and rounding its position
  changes nothing.
-/

namespace PointRelaxation

variable {α : Type} [Scalar α]

/-- The scenes that come about by registrations, passes and invalidations. Each pass may belong to
another relaxation, and may have been ended by a fault. -/
inductive Arises : Scene α → Prop
  | empty (decimals : ℕ) : Arises (.empty decimals)
  | register {scene scene' : Scene α} {name : Option String} {rule : Option (Rule α)}
      {position : Vec α} {p : Point α} :
      Arises scene → scene.register name rule position = .ok (p, scene') → Arises scene'
  | pass {scene : Scene α} {σ : Type} [Draws σ α] (r : Relaxation α σ) :
      Arises scene → Arises (r.pass scene).scene
  | invalidate {scene : Scene α} : Arises scene → Arises scene.invalidate

/-- A point that stands where some cell is. -/
def Point.OnGrid (decimals : ℕ) (p : Point α) : Prop :=
  ∃ c, Grid.place decimals c = .ok p.position

/-! ## What keeps a point on the grid -/

/-- A rounded position stands for a cell. -/
lemma Point.onGrid_unvisited {decimals : ℕ} {name : String} {rule : Rule α} {position v : Vec α}
    (h : Grid.round decimals position = .ok v) : (unvisited name rule v).OnGrid decimals := by
  obtain ⟨c, -, hplace⟩ := bind_eq_ok.1 h
  exact ⟨c, hplace⟩

/-- A point that is settled stays, or moves to the position of a cell. -/
lemma Point.OnGrid.settle {decimals : ℕ} {p : Point α} (h : p.OnGrid decimals) :
    (p.settle decimals).1.OnGrid decimals := by
  rcases hp : p.settle decimals with ⟨q, f | moved⟩
  · -- a point that cannot be settled does not move
    obtain ⟨position, score, stable, hq, hstays⟩ := settle_writes decimals p
    rw [hp] at hq hstays
    obtain rfl := hstays.resolve_left nofun
    rw [hq]
    exact h
  · obtain ⟨_, c, s, -, -, hcases⟩ := settle_eq_ok hp
    rcases hcases with ⟨current, -, -, rfl, -⟩ | ⟨-, position, hplace, rfl, -⟩
    · exact h
    · exact ⟨c, hplace⟩

/-- However far a visit comes, its point stays on the grid. -/
lemma Visit.onGrid_ofCloud {view : View α} {scene : Scene α} {p : Point α} {m : Candidates α}
    (h : p.OnGrid scene.decimals) : (ofCloud view scene p m).point.OnGrid scene.decimals := by
  let e := m.evaluate scene.decimals p.rule (view.places scene)
  have hscored : { p with candidates := e.candidates, degenerate := e.degenerate }.OnGrid
      scene.decimals := h
  rcases ofCloud_cases view scene p m with
    ⟨f, -, hv⟩ | ⟨-, f, q, hsettle, hv⟩ | ⟨-, moved, q, hsettle, hv⟩
  · rw [hv]
    exact hscored
  all_goals
    have hsettled := hscored.settle
    rw [hsettle] at hsettled
    rw [hv]
    exact hsettled

variable {σ : Type} [Draws σ α]

lemma Visit.onGrid_make {options : Options α} {view : View α} {scene : Scene α} {p : Point α}
    {s : σ} (h : p.OnGrid scene.decimals) :
    (make options view scene p s).1.point.OnGrid scene.decimals := by
  rcases make_eq options view scene p s with ⟨f, hv⟩ | ⟨m, hv⟩
  · rw [hv]
    exact h
  · rw [hv]
    exact onGrid_ofCloud h

/-- A pass keeps every point on the grid, whether or not it is completed. -/
lemma onGrid_pass {r : Relaxation α σ} {scene : Scene α}
    (h : ∀ p ∈ scene.points, p.OnGrid scene.decimals) :
    ∀ p ∈ (r.pass scene).scene.points, p.OnGrid scene.decimals := by
  intro q hq
  by_cases hstable : scene.allStable
  · rw [Relaxation.pass_idle hstable] at hq
    exact h q hq
  · have hsub : ∀ p ∈ scene.points.filter r.options.visits, p.name ∈ scene.names :=
      fun p hp => Scene.mem_names_of_mem (List.mem_of_mem_filter hp)
    rw [Relaxation.scene_pass hstable] at hq
    rcases (mem_points_sweep (Visit.point_name_make _ _) (scene.nodup_names_filter _) hsub).1 hq
      with ⟨v, hv, rfl⟩ | ⟨hold, -⟩
    · -- the scene of the visit has the same decimals, and its point was in the scene of the pass
      obtain ⟨scene', p, s', hp, rfl, hdecimals⟩ := exists_of_mem_visits hv
      rw [← hdecimals]
      exact Visit.onGrid_make (hdecimals ▸ h p (List.mem_of_mem_filter hp))
    · exact h q hold

/-! ## Runs -/

/-- Every point of a scene stands where some cell is. -/
lemma Arises.onGrid {scene : Scene α} (h : Arises scene) :
    ∀ p ∈ scene.points, p.OnGrid scene.decimals := by
  induction h with
  | empty decimals => exact fun p hp => absurd hp List.not_mem_nil
  | @register scene scene' name rule position p _ hregister ih =>
    obtain ⟨-, r, v, hfree, -, hround, rfl, rfl⟩ := Scene.register_eq_ok_iff.1 hregister
    intro q hq
    rcases List.mem_append.1 hq with hq | hq
    · exact ih q hq
    · rw [List.mem_singleton.1 hq]
      exact Point.onGrid_unvisited hround
  | @pass scene σ _ r _ ih =>
    rw [Relaxation.decimals_pass]
    exact onGrid_pass ih
  | @invalidate scene _ ih =>
    intro q hq
    obtain ⟨p, hp, rfl⟩ := List.mem_map.1 hq
    exact ih p hp

/-- In a scene of at most 22 decimals each point stands at the position of a cell. Unless that cell
is far from the origin, it is the one that holds the point, and the point stands at its own position
rounded. -/
theorem positions_on_grid [RoundedScalar α] {scene : Scene α} (h : Arises scene)
    (hd : scene.decimals ≤ 22) {p : Point α} (hp : p ∈ scene.points) :
    (∃ c, Grid.place scene.decimals c = .ok p.position) ∧
    ∀ c, Grid.place scene.decimals c = .ok p.position → |c.x| ≤ 2 ^ 50 → |c.y| ≤ 2 ^ 50 →
      p.cell scene.decimals = .ok c ∧
      Grid.round scene.decimals p.position = .ok p.position := by
  refine ⟨h.onGrid p hp, fun c hplace hx hy => ?_⟩
  have hcell : Grid.cell scene.decimals p.position = .ok c :=
    Grid.roundTrips hd hx hy p.position hplace
  exact ⟨hcell, bind_eq_ok.2 ⟨c, hcell, hplace⟩⟩

/-- What is reached by completed passes arises. -/
lemma Reached.arises {scene : Scene α} {evaluated : List String} (h : Reached scene evaluated) :
    Arises scene := by
  induction h with
  | empty decimals => exact .empty decimals
  | register _ hregister ih => exact ih.register hregister
  | pass r _ _ ih => exact ih.pass r
  | invalidate _ ih => exact ih.invalidate

/-- A position between the places of the grid. -/
def betweenPlaces : Vec Float := ⟨3.14159, -2.71828⟩

/-- A point that is registered between the places of the grid stands in the nearest cell, and in the
pursuit both points come to the cell at the origin. -/
theorem positions_on_grid_pursuit :
    (∃ scene : Scene Float, Arises scene ∧ ∃ p ∈ scene.points,
      p.cell scene.decimals = .ok ⟨314, -272⟩ ∧
      Grid.round scene.decimals p.position = .ok p.position) ∧
    ∀ p ∈ Exact.pursuitPass.scene.points, p.cell 0 = .ok ⟨0, 0⟩ ∧
      Grid.round (0 : ℕ) p.position = .ok p.position := by
  constructor
  · have hcell : Grid.cell (2 : ℕ) betweenPlaces = .ok ⟨314, -272⟩ :=
      eq_ok_of_toOption (by decide +kernel)
    obtain ⟨v, hplace⟩ := Grid.exists_place (α := Float) 2 (c := ⟨314, -272⟩)
      ⟨⟨by decide, by decide⟩, by decide, by decide⟩
    have hround : Grid.round (2 : ℕ) betweenPlaces = .ok v := bind_eq_ok.2 ⟨_, hcell, hplace⟩
    have hregister : (Scene.empty 2).register (some "A") (some fun _ _ => .ok 0.0) betweenPlaces =
        .ok _ :=
      Scene.register_eq_ok_iff.2 ⟨by decide, _, v, Bool.false_ne_true, rfl, hround, rfl, rfl⟩
    have harises := Arises.register (.empty 2) hregister
    have hdecimals : 2 ≤ 22 := by decide
    have hmem := List.mem_singleton_self (Point.unvisited "A" (fun _ _ => .ok 0.0) v)
    exact ⟨_, harises, _, hmem, (positions_on_grid harises hdecimals hmem).2 _ hplace
      (by decide) (by decide)⟩
  · have hplace : ∀ p ∈ Exact.pursuitPass.scene.points,
        Grid.place (0 : ℕ) ⟨0, 0⟩ = .ok p.position := by
      have hvalue : ∀ p ∈ Exact.pursuitPass.scene.points,
          (Grid.place (0 : ℕ) ⟨0, 0⟩ : Except (Fault Exact) _).toOption = some p.position := by
        unfold Exact.pursuitPass
        simp only [Relaxation.pass, Relaxation.sweepDue, Visit.make_eq_listed]
        decide +kernel
      exact fun p hp => eq_ok_of_toOption (hvalue p hp)
    have harises : Arises Exact.pursuitPass.scene :=
      Reached.pursuit.arises.pass (.start Exact.pursuitOptions Exact.pursuitDraws)
    have hdecimals : Exact.pursuitPass.scene.decimals = 0 := Relaxation.decimals_pass
    intro p hp
    have hgrid := (positions_on_grid harises (by omega) hp).2 ⟨0, 0⟩
    rw [hdecimals] at hgrid
    exact hgrid (hplace p hp) (by decide) (by decide)

end PointRelaxation
