import PointRelaxation.Proofs.Choice
import PointRelaxation.Proofs.Registry
import PointRelaxation.Relaxation.Visit

/-!
# What a visit makes of a point

A visit writes only the point it is made to, and never its name or its rule. `Outcome` says all
that later proofs use of a completed visit; `Visit.outcome_ofCloud` and `Visit.outcome_make` derive
it from the definitions once.
-/

namespace PointRelaxation

variable {α : Type} [Scalar α]

namespace Point

/-! ## Settling -/

/-- Settling a point writes its position, its score and its flag only, and its position only if it
moves. -/
lemma settle_writes (decimals : ℕ) (p : Point α) :
    ∃ position score stable, (p.settle decimals).1 = { p with position, score, stable } ∧
      ((p.settle decimals).2 = .ok true ∨ position = p.position) := by
  have hmove : ∀ c s, ∃ position score stable,
      (settle.move decimals p c s).1 = { p with position, score, stable } ∧
        ((settle.move decimals p c s).2 = .ok true ∨ position = p.position) := by
    intro c s
    unfold settle.move
    split
    · exact ⟨p.position, p.score, false, rfl, .inr rfl⟩
    · exact ⟨_, _, _, rfl, .inl rfl⟩
  unfold settle
  split
  · exact ⟨p.position, p.score, p.stable, rfl, .inr rfl⟩
  · split
    · exact ⟨p.position, p.score, p.stable, rfl, .inr rfl⟩
    · split
      · split
        · exact ⟨p.position, _, true, rfl, .inr rfl⟩
        · exact hmove _ _
      · exact hmove _ _

/-- A point that is settled stays if its own cell holds a greatest score, and moves to the chosen
cell otherwise. -/
lemma settle_eq_ok {decimals : ℕ} {p q : Point α} {moved : Bool}
    (h : p.settle decimals = (q, .ok moved)) :
    ∃ here c s, p.cell decimals = .ok here ∧ p.candidates.best = .ok (c, s) ∧
      ((∃ current, p.candidates.score? here = some current ∧ s ≤ current ∧
          q = { p with stable := true, score := current } ∧ moved = false) ∨
        ((∀ current, p.candidates.score? here = some current → ¬ s ≤ current) ∧
          ∃ position, Grid.place decimals c = .ok position ∧
            q = { p with position, score := s, stable := false } ∧ moved = true)) := by
  have hmove : ∀ {c s}, settle.move decimals p c s = (q, .ok moved) →
      ∃ position, Grid.place decimals c = .ok position ∧
        q = { p with position, score := s, stable := false } ∧ moved = true := by
    intro c s hm
    unfold settle.move at hm
    split at hm
    · simp at hm
    · rename_i position hplace
      rw [Prod.mk.injEq, Except.ok.injEq] at hm
      exact ⟨position, hplace, hm.1.symm, hm.2.symm⟩
  unfold settle at h
  split at h
  · simp at h
  · rename_i here hhere
    split at h
    · simp at h
    · rename_i c s hbest
      refine ⟨here, c, s, hhere, hbest, ?_⟩
      split at h
      · rename_i current hcurrent
        split at h
        · rename_i hle
          rw [Prod.mk.injEq, Except.ok.injEq] at h
          exact .inl ⟨current, hcurrent, hle, h.1.symm, h.2.symm⟩
        · rename_i hle
          refine .inr ⟨fun t ht => ?_, hmove h⟩
          rw [hcurrent, Option.some.injEq] at ht
          exact ht ▸ hle
      · rename_i hnone
        exact .inr ⟨fun t ht => by simp [hnone] at ht, hmove h⟩

/-- A point that stands in a cell can be settled if there is a place for the chosen one. -/
lemma exists_settle {decimals : ℕ} {p : Point α} {here c : Cell} {s : α} {position : Vec α}
    (hhere : p.cell decimals = .ok here) (hbest : p.candidates.best = .ok (c, s))
    (hplace : Grid.place decimals c = .ok position) :
    ∃ q moved, p.settle decimals = (q, .ok moved) := by
  have hmove : settle.move decimals p c s =
      ({ p with position, score := s, stable := false }, .ok true) := by
    unfold settle.move
    simp only [hplace]
  unfold settle
  simp only [hhere, hbest]
  rcases p.candidates.score? here with _ | current
  · exact ⟨_, _, hmove⟩
  · by_cases hle : s ≤ current
    · exact ⟨_, _, if_pos hle⟩
    · exact ⟨_, _, (if_neg hle).trans hmove⟩

end Point

/-! ## The outcome of a visit -/

/-- What a completed visit to `p` leaves behind as `q`: every cell is scored by the rule against
`places`, the point has the greatest score, and either it stays where it was on a cell of that
score, or it moves to one. -/
structure Outcome (decimals : ℕ) (places : Places α) (p q : Point α) (moved : Bool) : Prop where
  name : q.name = p.name
  rule : q.rule = p.rule
  scored : ∀ e ∈ q.candidates.entries,
    ∃ v, Verdict.ofCell decimals q.rule places e.1 = .ok v ∧ e.2 = some v.score
  greatest : ∀ e ∈ q.candidates.entries, ∃ s, e.2 = some s ∧ s ≤ q.score
  stays : q.stable = true → moved = false ∧ q.position = p.position ∧
    ∃ c, q.cell decimals = .ok c ∧ q.candidates.score? c = some q.score
  moves : q.stable = false → moved = true ∧
    ∃ c, Grid.place decimals c = .ok q.position ∧ q.candidates.score? c = some q.score

/-- A point that a visit can settle from candidates: it stands in a cell, and its rule fails at none
of the candidates, of which there are some. -/
structure Point.Fits (decimals : ℕ) (places : Places α) (p : Point α) (m : Candidates α) :
    Prop where
  nonempty : m.entries ≠ []
  scored : ∀ e ∈ m.entries, ∃ v, Verdict.ofCell decimals p.rule places e.1 = .ok v
  standing : ∃ c, p.cell decimals = .ok c

namespace Visit

/-- How far a visit comes: its evaluation meets a fault, or its settling does, or the point is
settled. -/
lemma ofCloud_cases (view : View α) (scene : Scene α) (p : Point α) (m : Candidates α) :
    let e := m.evaluate scene.decimals p.rule (view.places scene)
    let scored := { p with candidates := e.candidates, degenerate := e.degenerate }
    (∃ f, e.fault = some f ∧ ofCloud view scene p m = ⟨scene, p, .unscored f scored⟩) ∨
      (e.fault = none ∧ ∃ f q, scored.settle scene.decimals = (q, .error f) ∧
        ofCloud view scene p m = ⟨scene, p, .unsettled f scored q⟩) ∨
      (e.fault = none ∧ ∃ moved q, scored.settle scene.decimals = (q, .ok moved) ∧
        ofCloud view scene p m = ⟨scene, p, .settled moved scored q⟩) := by
  intro e scored
  have heval : { p with candidates := m }.evaluate scene.decimals (view.places scene) =
      (scored, e.fault) := rfl
  unfold ofCloud
  rw [heval]
  rcases e.fault with _ | f
  · right
    rcases hsettle : scored.settle scene.decimals with ⟨q, f | moved⟩
    · exact .inl ⟨rfl, f, q, rfl, by simp only [hsettle]⟩
    · exact .inr ⟨rfl, moved, q, rfl, by simp only [hsettle]⟩
  · exact .inl ⟨f, rfl, rfl⟩

/-- A visit that is completed evaluated every candidate and settled the point. -/
lemma ofCloud_of_fault?_eq_none {view : View α} {scene : Scene α} {p : Point α}
    {m : Candidates α} (h : (ofCloud view scene p m).fault? = none) :
    let scored := ({ p with candidates := m }.evaluate scene.decimals (view.places scene)).1
    (m.evaluate scene.decimals p.rule (view.places scene)).fault = none ∧
      scored.settle scene.decimals =
        ((ofCloud view scene p m).point, .ok (ofCloud view scene p m).moved) := by
  rcases ofCloud_cases view scene p m with
    ⟨f, -, hv⟩ | ⟨-, f, q, -, hv⟩ | ⟨hfault, moved, q, hsettle, hv⟩
  · rw [hv] at h
    exact absurd h (Option.some_ne_none f)
  · rw [hv] at h
    exact absurd h (Option.some_ne_none f)
  · rw [hv]
    exact ⟨hfault, hsettle⟩

/-- A visit evaluates the candidates of its point. Else it writes position, score and flag only, and
the position only if the point moves. -/
lemma ofCloud_writes (view : View α) (scene : Scene α) (p : Point α) (m : Candidates α) :
    let e := m.evaluate scene.decimals p.rule (view.places scene)
    ∃ position score stable,
      (ofCloud view scene p m).point =
        { p with
          position, score, stable, candidates := e.candidates, degenerate := e.degenerate } ∧
      ((ofCloud view scene p m).moved ∨ position = p.position) := by
  intro e
  rcases ofCloud_cases view scene p m with
    ⟨f, -, h⟩ | ⟨-, f, q, hsettle, h⟩ | ⟨-, moved, q, hsettle, h⟩
  · rw [h]
    exact ⟨p.position, p.score, p.stable, rfl, .inr rfl⟩
  · obtain ⟨position, score, stable, hq, hmoved⟩ := Point.settle_writes scene.decimals
      { p with candidates := e.candidates, degenerate := e.degenerate }
    rw [hsettle] at hq hmoved
    rw [h]
    exact ⟨position, score, stable, hq, .inr (hmoved.resolve_left (by simp))⟩
  · obtain ⟨position, score, stable, hq, hmoved⟩ := Point.settle_writes scene.decimals
      { p with candidates := e.candidates, degenerate := e.degenerate }
    rw [hsettle] at hq hmoved
    rw [h]
    exact ⟨position, score, stable, hq, hmoved.imp_left Except.ok.inj⟩

/-- Whatever becomes of a visit, its point holds the candidates that were proposed. -/
lemma cells_ofCloud (view : View α) (scene : Scene α) (p : Point α) (m : Candidates α) :
    (ofCloud view scene p m).point.candidates.cells = m.cells := by
  obtain ⟨position, score, stable, h, -⟩ := ofCloud_writes view scene p m
  rw [h]
  exact Candidates.cells_evaluate _ _ _ _

lemma point_name_ofCloud (view : View α) (scene : Scene α) (p : Point α) (m : Candidates α) :
    (ofCloud view scene p m).point.name = p.name := by
  obtain ⟨position, score, stable, h, -⟩ := ofCloud_writes view scene p m
  rw [h]

/-- A completed visit has an outcome. -/
lemma outcome_ofCloud [OrderedScalar α] {view : View α} {scene : Scene α} {p : Point α}
    {m : Candidates α} (h : (ofCloud view scene p m).fault? = none) :
    Outcome scene.decimals (view.places scene) p (ofCloud view scene p m).point
      (ofCloud view scene p m).moved := by
  obtain ⟨hfault, hsettle⟩ := ofCloud_of_fault?_eq_none h
  have hscored := Candidates.evaluate_scored hfault
  have hnum := Candidates.le_self_of_scored hscored
  obtain ⟨here, c, s, hhere, hbest, hcase⟩ := Point.settle_eq_ok hsettle
  obtain ⟨hc, hgreatest⟩ := Candidates.best_spec hnum hbest
  rcases hcase with ⟨current, hcurrent, hle, hq, hmoved⟩ | ⟨-, position, hplace, hq, hmoved⟩
  · rw [hq, hmoved]
    refine ⟨rfl, rfl, hscored, ?_, fun _ => ⟨rfl, rfl, here, hhere, hcurrent⟩, by simp⟩
    intro e he
    obtain ⟨t, ht, hts⟩ := hgreatest e he
    exact ⟨t, ht, OrderedScalar.le_trans _ _ _ hts hle⟩
  · rw [hq, hmoved]
    exact ⟨rfl, rfl, hscored, hgreatest, by simp, fun _ => ⟨rfl, c, hplace, hc⟩⟩

/-! ## Visits that are completed -/

/-- A visit meets no fault if the point stands in a cell and there are candidates, at none of which
its rule fails; and only then. -/
lemma fault?_ofCloud [OrderedScalar α] {view : View α} {scene : Scene α} {p : Point α}
    {m : Candidates α} :
    (ofCloud view scene p m).fault? = none ↔ p.Fits scene.decimals (view.places scene) m := by
  constructor
  · -- a visit that came to its end evaluated its candidates and chose one of them
    intro h
    obtain ⟨hfault, hsettle⟩ := ofCloud_of_fault?_eq_none h
    obtain ⟨here, c, s, hhere, hbest, -⟩ := Point.settle_eq_ok hsettle
    refine ⟨?_, Candidates.fault_judge.1 hfault, here, hhere⟩
    intro hm
    have hempty : (m.evaluate scene.decimals p.rule (view.places scene)).candidates.best =
        .error .noCandidates := by
      unfold Candidates.best Candidates.evaluate
      simp only [hm]
      rfl
    exact absurd (hempty.symm.trans hbest) (by simp)
  · rintro ⟨hne, hscored, here, hhere⟩
    have hfault : (m.evaluate scene.decimals p.rule (view.places scene)).fault = none :=
      Candidates.fault_judge.2 hscored
    have hall := Candidates.evaluate_scored hfault
    have hne' : (m.evaluate scene.decimals p.rule (view.places scene)).candidates.entries ≠ [] := by
      intro hm
      have hcells := Candidates.cells_evaluate scene.decimals p.rule (view.places scene) m
      unfold Candidates.cells at hcells
      rw [hm, List.map_nil, eq_comm, List.map_eq_nil_iff] at hcells
      exact hne hcells
    obtain ⟨⟨c, s⟩, hbest⟩ := Candidates.exists_best hne' fun e he => by
      obtain ⟨v, -, hs⟩ := hall e he
      exact ⟨v.score, hs⟩
    obtain ⟨hc, -⟩ := Candidates.best_spec (Candidates.le_self_of_scored hall) hbest
    -- the chosen cell was scored, so there is a position that stands for it
    obtain ⟨v, hv, -⟩ := hall _ (Candidates.score?_eq_some_iff.1 hc)
    obtain ⟨position, hplace, -⟩ := bind_eq_ok.1 hv
    obtain ⟨q, moved, hsettle⟩ := Point.exists_settle
      (p := ({ p with candidates := m }.evaluate scene.decimals (view.places scene)).1)
      hhere hbest hplace
    have heval : { p with candidates := m }.evaluate scene.decimals (view.places scene) =
        (({ p with candidates := m }.evaluate scene.decimals (view.places scene)).1, none) :=
      Prod.ext rfl hfault
    unfold ofCloud
    rw [heval]
    simp only [hsettle]
    rfl

/-! ## Visits with a fresh cloud -/

/-- The cells that a visit proposed, if it could propose any. -/
def cloud? (v : Visit α) : Option (List Cell) :=
  match v.progress with
  | .unseeded _ => none
  | _ => some v.point.candidates.cells

lemma cloud?_ofCloud (view : View α) (scene : Scene α) (p : Point α) (m : Candidates α) :
    (ofCloud view scene p m).cloud? = some m.cells := by
  have hcells := cells_ofCloud view scene p m
  unfold cloud?
  rcases ofCloud_cases view scene p m with ⟨f, -, h⟩ | ⟨-, f, q, -, h⟩ | ⟨-, moved, q, -, h⟩
  all_goals
    rw [h] at hcells ⊢
    exact congrArg some hcells

variable {σ : Type} [Draws σ α]

lemma make_of_seed_error {options : Options α} {view : View α} {scene : Scene α} {p : Point α}
    {s : σ} {f : Fault α}
    (h : (Candidates.seed scene.decimals p.position options.samples options.radius s).1 =
      .error f) :
    make options view scene p s = (⟨scene, p, .unseeded f⟩,
      (Candidates.seed scene.decimals p.position options.samples options.radius s).2) := by
  unfold make
  simp only [h]

lemma make_of_seed_ok {options : Options α} {view : View α} {scene : Scene α} {p : Point α}
    {s : σ} {m : Candidates α}
    (h : (Candidates.seed scene.decimals p.position options.samples options.radius s).1 = .ok m) :
    make options view scene p s = (ofCloud view scene p m,
      (Candidates.seed scene.decimals p.position options.samples options.radius s).2) := by
  unfold make
  simp only [h]

/-- A visit with a fresh cloud is a visit with the candidates of that cloud, if there are any. -/
lemma make_eq (options : Options α) (view : View α) (scene : Scene α) (p : Point α) (s : σ) :
    (∃ f, (make options view scene p s).1 = ⟨scene, p, .unseeded f⟩) ∨
      ∃ m, (make options view scene p s).1 = ofCloud view scene p m := by
  rcases h : (Candidates.seed scene.decimals p.position options.samples options.radius s).1 with
    f | m
  · exact .inl ⟨f, congrArg Prod.fst (make_of_seed_error h)⟩
  · exact .inr ⟨m, congrArg Prod.fst (make_of_seed_ok h)⟩

/-- A visit takes from the source what its cloud takes. -/
lemma source_make (options : Options α) (view : View α) (scene : Scene α) (p : Point α) (s : σ) :
    (make options view scene p s).2 =
      (Candidates.seed scene.decimals p.position options.samples options.radius s).2 := by
  rcases h : (Candidates.seed scene.decimals p.position options.samples options.radius s).1 with
    f | m
  · rw [make_of_seed_error h]
  · rw [make_of_seed_ok h]

/-- A visit proposes the cells of its cloud. -/
lemma cloud?_make (options : Options α) (view : View α) (scene : Scene α) (p : Point α) (s : σ) :
    (make options view scene p s).1.cloud? =
      (Candidates.seed scene.decimals p.position options.samples options.radius
        s).1.toOption.map Candidates.cells := by
  rcases h : (Candidates.seed scene.decimals p.position options.samples options.radius s).1 with
    f | m
  · rw [make_of_seed_error h]
    rfl
  · rw [make_of_seed_ok h, cloud?_ofCloud]
    rfl

lemma scene_make (options : Options α) (view : View α) (scene : Scene α) (p : Point α) (s : σ) :
    (make options view scene p s).1.scene = scene := by
  rcases make_eq options view scene p s with ⟨f, h⟩ | ⟨m, h⟩
  · rw [h]
  · rw [h]
    rfl

lemma found_make (options : Options α) (view : View α) (scene : Scene α) (p : Point α) (s : σ) :
    (make options view scene p s).1.found = p := by
  rcases make_eq options view scene p s with ⟨f, h⟩ | ⟨m, h⟩
  · rw [h]
  · rw [h]
    rfl

@[simp] lemma point_name_make (options : Options α) (view : View α) (scene : Scene α)
    (p : Point α) (s : σ) : (make options view scene p s).1.point.name = p.name := by
  rcases make_eq options view scene p s with ⟨f, h⟩ | ⟨m, h⟩
  · rw [h]
    rfl
  · rw [h, point_name_ofCloud]

/-- A point that does not move stands where it stood. -/
lemma position_make {options : Options α} {view : View α} {scene : Scene α} {p : Point α} {s : σ}
    (h : (make options view scene p s).1.moved = false) :
    (make options view scene p s).1.point.position = p.position := by
  rcases make_eq options view scene p s with ⟨f, hf⟩ | ⟨m, hm⟩
  · rw [hf]
    rfl
  · rw [hm] at h ⊢
    obtain ⟨position, score, stable, hq, hmoved⟩ := ofCloud_writes view scene p m
    rw [hq]
    exact hmoved.resolve_left (by simp [h])

/-- Of a view a visit reads only where the points stand. -/
lemma make_congr {view view' : View α} {scene : Scene α}
    (h : view.places scene = view'.places scene) (options : Options α) (p : Point α) (s : σ) :
    make options view scene p s = make options view' scene p s := by
  unfold make ofCloud
  rw [h]

lemma outcome_make [OrderedScalar α] {options : Options α} {view : View α} {scene : Scene α}
    {p : Point α} {s : σ} (h : (make options view scene p s).1.fault? = none) :
    Outcome scene.decimals (view.places scene) p (make options view scene p s).1.point
      (make options view scene p s).1.moved := by
  rcases make_eq options view scene p s with ⟨f, hf⟩ | ⟨m, hm⟩
  · simp [hf, fault?] at h
  · rw [hm] at h ⊢
    exact outcome_ofCloud h

end Visit
end PointRelaxation
