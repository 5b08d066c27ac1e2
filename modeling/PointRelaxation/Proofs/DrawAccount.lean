import PointRelaxation.Proofs.Exact
import PointRelaxation.Proofs.Pass

/-!
# The account of the draws

Each visit draws twice as often as it proposes candidates, and nothing else draws. So the visits of
all passes of a relaxation, counted from its beginning, share its draws out among them in order,
however the passes end and whatever happens to the scene between them.

* `Draws.take_eq`: the draws of a source as a sequence.
* `Candidates.offsets_eq`: the offsets of a cloud by the draws they are made of.
* `Relaxation.session`: passes in a row over a scene that is changed between them.
* `session_draws`: which draws the cloud of each visit is made of, and how passes are counted.
-/

namespace PointRelaxation

/-! ## Sources as sequences -/

namespace Draws

variable {α σ : Type} [Draws σ α]

/-- The source behind the next `n` draws. -/
def after : ℕ → σ → σ
  | 0, s => s
  | n + 1, s => after n (next s).2

/-- The draw at place `n` among those to come. -/
def nth (s : σ) (n : ℕ) : α := (next (after n s)).1

lemma after_add (m n : ℕ) (s : σ) : after (m + n) s = after n (after m s) := by
  induction m generalizing s with
  | zero => rw [Nat.zero_add, after]
  | succ m ih => rw [Nat.succ_add, after, after, ih]

lemma nth_after (m n : ℕ) (s : σ) : nth (after m s) n = nth s (m + n) := by
  unfold nth
  rw [after_add]

lemma take_eq (n : ℕ) (s : σ) : take n s = ((List.range n).map (nth s), after n s) := by
  induction n generalizing s with
  | zero => rfl
  | succ n ih =>
    rw [take, List.range_succ_eq_map, List.map_cons, List.map_map]
    simp only [ih]
    rfl

end Draws

variable {α σ : Type} [Scalar α] [Draws σ α]

/-! ## The draws of one visit -/

/-- The offsets of the visit at place `j`, if each visit before it has drawn as often as this one.
Of its draws the first half are for angles and the others for lengths. -/
def Options.offsetsAt (options : Options α) (draws : ℕ → α) (j : ℕ) : List (Vec α) :=
  let first := 2 * options.samples * j
  (List.range options.samples).map fun k =>
    Candidates.offset options.radius (draws (first + k)) (draws (first + options.samples + k))

/-- The cells of the cloud that a visit proposes at given offsets, if it can propose any. -/
def Visit.cloudOf (v : Visit α) (offsets : List (Vec α)) : Option (List Cell) :=
  (Candidates.around v.scene.decimals v.found.position offsets).toOption.map Candidates.cells

lemma Candidates.offsets_eq (options : Options α) (source : σ) (j : ℕ) :
    offsets options.samples options.radius (Draws.after (2 * options.samples * j) source) =
      (options.offsetsAt (Draws.nth source) j,
        Draws.after (2 * options.samples * (j + 1)) source) := by
  have hsource : 2 * options.samples * (j + 1) =
      2 * options.samples * j + options.samples + options.samples := by ring
  unfold offsets Options.offsetsAt
  simp only [Draws.take_eq, Draws.nth_after, List.zipWith_map, List.zipWith_self, hsource,
    Nat.add_assoc, Draws.after_add]

variable (options : Options α) (view : View α) (source : σ)

/-- The visit at place `j` proposes the cloud of its own draws, and leaves the source to the
next. -/
lemma Visit.make_draws (scene : Scene α) (p : Point α) (j : ℕ) :
    let made := make options view scene p (Draws.after (2 * options.samples * j) source)
    made.1.cloud? = made.1.cloudOf (options.offsetsAt (Draws.nth source) j) ∧
      made.2 = Draws.after (2 * options.samples * (j + 1)) source := by
  intro made
  have hoffsets := Candidates.offsets_eq options source j
  constructor
  · unfold cloudOf
    rw [cloud?_make, scene_make, found_make]
    unfold Candidates.seed
    rw [hoffsets]
  · rw [source_make]
    unfold Candidates.seed
    rw [hoffsets]

/-! ## The draws of many visits -/

/-- The visits, the first of which is the one at place `j`, propose the clouds of their own
draws. -/
def Drawn (options : Options α) (source : σ) (j : ℕ) (visits : List (Visit α)) : Prop :=
  ∀ i (v : Visit α), visits[i]? = some v →
    v.cloud? = v.cloudOf (options.offsetsAt (Draws.nth source) (j + i))

variable {options source}

lemma Drawn.nil {j : ℕ} : Drawn options source j [] := by
  intro i v hv
  simp at hv

lemma Drawn.append {j : ℕ} {vs ws : List (Visit α)} (hvs : Drawn options source j vs)
    (hws : Drawn options source (j + vs.length) ws) : Drawn options source j (vs ++ ws) := by
  intro i v hv
  by_cases hi : i < vs.length
  · rw [List.getElem?_append_left hi] at hv
    exact hvs i v hv
  · rw [List.getElem?_append_right (Nat.le_of_not_lt hi)] at hv
    have hplace : j + vs.length + (i - vs.length) = j + i := by omega
    exact hplace ▸ hws _ v hv

lemma Drawn.singleton {j : ℕ} {v : Visit α}
    (h : v.cloud? = v.cloudOf (options.offsetsAt (Draws.nth source) j)) :
    Drawn options source j [v] := by
  intro i w hw
  obtain ⟨rfl, rfl⟩ : i = 0 ∧ v = w := by simpa [List.getElem?_singleton] using hw
  exact h

variable (options source)

/-- A sweep that begins with the visit at place `j` draws for each of its visits and for nothing
else, whether or not it is completed. -/
lemma sweep_draws (ps : List (Point α)) (scene : Scene α) (j : ℕ) :
    let swept := sweep (Visit.make options view) ps scene
      (Draws.after (2 * options.samples * j) source)
    Drawn options source j swept.visits ∧
      swept.source = Draws.after (2 * options.samples * (j + swept.visits.length)) source := by
  intro swept
  -- for any place `j`, since the other points are visited from the next place on
  induction ps generalizing scene j with
  | nil => exact ⟨.nil, rfl⟩
  | cons p ps ih =>
    obtain ⟨hcloud, hsource⟩ := Visit.make_draws options view source scene p j
    rcases hf : (Visit.make options view scene p
        (Draws.after (2 * options.samples * j) source)).1.fault? with _ | f
    · obtain ⟨hvisits, hrest⟩ := ih (scene.replace (Visit.make options view scene p
        (Draws.after (2 * options.samples * j) source)).1.point) (j + 1)
      rw [← hsource] at hvisits hrest
      simp only [swept, sweep_cons_of_none hf]
      refine ⟨(Drawn.singleton hcloud).append hvisits, hrest.trans ?_⟩
      rw [List.length_cons, Nat.add_assoc, Nat.add_comm 1]
    · simp only [swept, sweep_cons_of_some hf]
      exact ⟨.singleton hcloud, hsource⟩

/-! ## Sessions -/

/-- The report of a pass that was completed and found something to do. -/
def Pass.completed? (pass : Pass α σ) : Option PassReport :=
  match pass.report with
  | .ok report => if report.idle then none else some report
  | .error _ => none

/-- Passes in a row: the relaxation and the scene behind them, and each pass with the scene it was
run on. -/
structure Session (α σ : Type) where
  relaxation : Relaxation α σ
  scene : Scene α
  passes : List (Scene α × Pass α σ)

namespace Session

/-- The visits of all passes, in order. -/
def visits (session : Session α σ) : List (Visit α) := session.passes.flatMap (·.2.visits)

/-- The reports of the passes that were completed and found something to do. -/
def completed (session : Session α σ) : List PassReport :=
  session.passes.filterMap (·.2.completed?)

end Session

namespace Relaxation

/-- Runs one pass behind each of the given changes to the scene, whatever they are and however the
passes before it ended. -/
def session : List (Scene α → Scene α) → Relaxation α σ → Scene α → Session α σ
  | [], r, scene => ⟨r, scene, []⟩
  | change :: changes, r, scene =>
    let p := r.pass (change scene)
    let rest := session changes p.relaxation p.scene
    { rest with passes := (change scene, p) :: rest.passes }

/-- A pass that begins with the visit at place `j` draws for each of its visits and for nothing
else. -/
lemma pass_draws {r : Relaxation α σ} {j : ℕ}
    (hsource : r.source = Draws.after (2 * r.options.samples * j) source) (scene : Scene α) :
    let pass := r.pass scene
    Drawn r.options source j pass.visits ∧ pass.relaxation.source =
      Draws.after (2 * r.options.samples * (j + pass.visits.length)) source := by
  intro pass
  by_cases h : scene.allStable
  · have hpass : pass = _ := pass_idle h
    rw [hpass]
    exact ⟨.nil, hsource⟩
  · have hsweep := sweep_draws r.options (View.make scene r.options.snapshot) source
      (scene.points.filter r.options.visits) scene j
    rw [← hsource] at hsweep
    rw [visits_pass h, relaxation_pass h]
    exact hsweep

/-- A pass that finds something to do visits the points that are due in order, and all of them if it
is completed. -/
lemma found_pass {r : Relaxation α σ} {scene : Scene α} (h : ¬ scene.allStable) :
    ∃ rest, scene.points.filter r.options.visits = (r.pass scene).visits.map Visit.found ++ rest ∧
      ∀ report, (r.pass scene).report = .ok report → rest = [] := by
  obtain ⟨rest, hdue, hrest⟩ :=
    found_sweep (Visit.found_make r.options (View.make scene r.options.snapshot))
      (scene.points.filter r.options.visits) scene r.source
  refine ⟨rest, ?_, fun report hr => hrest (pass_eq_ok h hr).1⟩
  rw [visits_pass h]
  exact hdue

/-- A pass is counted exactly if it is completed and finds something to do, and its report then
carries the count before it. -/
lemma completed?_pass (r : Relaxation α σ) (scene : Scene α) :
    ((r.pass scene).completed? = none ∧ (r.pass scene).relaxation.passes = r.passes) ∨
      ∃ report, (r.pass scene).completed? = some report ∧ report.index = r.passes ∧
        (r.pass scene).relaxation.passes = r.passes + 1 := by
  by_cases h : scene.allStable
  · rw [pass_idle h]
    exact .inl ⟨rfl, rfl⟩
  · rcases hf : (r.sweepDue scene).fault with _ | f
    · rw [pass_eq_of_none h hf]
      exact .inr ⟨_, rfl, rfl, rfl⟩
    · rw [pass_eq_of_some h hf]
      exact .inl ⟨rfl, rfl⟩

variable (changes : List (Scene α → Scene α))

lemma session_passes (r : Relaxation α σ) (scene : Scene α) :
    ∀ e ∈ (r.session changes scene).passes,
      ∃ r' : Relaxation α σ, r'.options = r.options ∧ e.2 = r'.pass e.1 := by
  induction changes generalizing r scene with
  | nil => simp [session]
  | cons change changes ih =>
    rintro e (_ | ⟨_, he⟩)
    · exact ⟨r, rfl, rfl⟩
    · obtain ⟨r', hoptions, hpass⟩ := ih _ _ e he
      exact ⟨r', hoptions.trans options_pass, hpass⟩

/-- The visits of a session draw one after the other, and nothing else draws. -/
lemma session_drawn {r : Relaxation α σ} {j : ℕ}
    (hsource : r.source = Draws.after (2 * r.options.samples * j) source) (scene : Scene α) :
    let session := r.session changes scene
    Drawn r.options source j session.visits ∧ session.relaxation.source =
      Draws.after (2 * r.options.samples * (j + session.visits.length)) source := by
  intro session
  -- each pass begins at the place behind the visits of those before it
  induction changes generalizing r scene j with
  | nil => exact ⟨.nil, hsource⟩
  | cons change changes ih =>
    obtain ⟨hvisits, hpass⟩ := pass_draws source hsource (change scene)
    have hoptions : (r.pass (change scene)).relaxation.options = r.options := options_pass
    rw [← hoptions] at hpass
    obtain ⟨hrest, hsource'⟩ := ih hpass (r.pass (change scene)).scene
    rw [hoptions] at hrest hsource'
    refine ⟨hvisits.append hrest, hsource'.trans ?_⟩
    simp [session, Relaxation.session, Session.visits, Nat.add_assoc]

/-- The completed passes of a session are counted one after the other. -/
lemma session_counted (r : Relaxation α σ) (scene : Scene α) :
    let session := r.session changes scene
    session.relaxation.passes = r.passes + session.completed.length ∧
      session.completed.map PassReport.index = List.range' r.passes session.completed.length := by
  intro session
  induction changes generalizing r scene with
  | nil => exact ⟨rfl, rfl⟩
  | cons change changes ih =>
    obtain ⟨hcount, hindices⟩ := ih (r.pass (change scene)).relaxation (r.pass (change scene)).scene
    rcases completed?_pass r (change scene) with ⟨hnone, hpasses⟩ | ⟨report, hsome, hindex, hpasses⟩
    · -- the pass was idle or interrupted
      have hcompleted : session.completed = ((r.pass (change scene)).relaxation.session changes
          (r.pass (change scene)).scene).completed := List.filterMap_cons_none hnone
      rw [hcompleted, ← hpasses]
      exact ⟨hcount, hindices⟩
    · have hcompleted : session.completed = report :: ((r.pass (change scene)).relaxation.session
          changes (r.pass (change scene)).scene).completed := List.filterMap_cons_some hsome
      rw [hcompleted, List.length_cons, List.map_cons, hindices, hindex, hpasses]
      rw [hpasses] at hcount
      exact ⟨hcount.trans (by omega), rfl⟩

end Relaxation

/-- Whatever happens to the scene between the passes of a relaxation, and however they end: the
visit at place `j`, counted over all passes, proposes the cloud of the draws from `2 * samples * j`
on, of which the first half are for the angles of its offsets and as many more for their lengths.
All draws are accounted for so. A pass over a stable scene visits nothing; any other visits the
points that are due in order, and all of them if it is completed. The relaxation counts the passes
that were completed and found something to do, and their reports carry the numbers from zero on. -/
theorem session_draws (options : Options α) (source : σ) (changes : List (Scene α → Scene α))
    (scene : Scene α) :
    let session := (Relaxation.start options source).session changes scene
    (∀ j (v : Visit α), session.visits[j]? = some v →
      v.cloud? = v.cloudOf (options.offsetsAt (Draws.nth source) j)) ∧
    session.relaxation.source = Draws.after (2 * options.samples * session.visits.length) source ∧
    (∀ e ∈ session.passes, e.1.allStable → e.2.visits = []) ∧
    (∀ e ∈ session.passes, ¬ e.1.allStable →
      ∃ rest, e.1.points.filter options.visits = e.2.visits.map Visit.found ++ rest ∧
        ∀ report, e.2.report = .ok report → rest = []) ∧
    session.relaxation.passes = session.completed.length ∧
    session.completed.map PassReport.index = List.range session.completed.length := by
  intro session
  have hpasses := Relaxation.session_passes changes (.start options source) scene
  have hstart : (Relaxation.start options source).source =
      Draws.after (2 * (Relaxation.start options source).options.samples * 0) source := rfl
  obtain ⟨hdrawn, hsource⟩ := Relaxation.session_drawn source changes hstart scene
  obtain ⟨hcount, hindices⟩ := Relaxation.session_counted changes (.start options source) scene
  refine ⟨fun j v hv => ?_, ?_, fun e he h => ?_, fun e he h => ?_, ?_, ?_⟩
  · rw [hdrawn j v hv, Nat.zero_add]
    rfl
  · rw [hsource, Nat.zero_add]
    rfl
  · obtain ⟨r', -, hpass⟩ := hpasses e he
    rw [hpass, Relaxation.pass_idle h]
  · obtain ⟨r', hoptions, hpass⟩ := hpasses e he
    obtain rfl : r'.options = options := hoptions
    rw [hpass]
    exact Relaxation.found_pass h
  · rw [hcount]
    exact Nat.zero_add _
  · rw [hindices, List.range_eq_range']
    rfl

/-- The points of the pursuit are visited in two passes before there is nothing left to do, and the
last of these visits proposes the cloud of the fourth group of draws. -/
theorem session_draws_pursuit :
    let session := (Relaxation.start Exact.pursuitOptions Exact.pursuitDraws).session
      [id, Scene.invalidate, id] Exact.pursuit
    (∃ v : Visit Exact, session.visits[3]? = some v ∧ v.cloud? =
      v.cloudOf (Exact.pursuitOptions.offsetsAt (Draws.nth Exact.pursuitDraws) 3)) ∧
    session.relaxation.source = Draws.after 16 Exact.pursuitDraws ∧
    session.completed.map PassReport.index = [0, 1] := by
  intro session
  obtain ⟨hdrawn, hsource, -, -, -, hindices⟩ := session_draws Exact.pursuitOptions
    Exact.pursuitDraws [id, Scene.invalidate, id] Exact.pursuit
  have hvisits : session.visits.length = 4 ∧ session.completed.length = 2 := by
    simp only [session, Relaxation.session, Relaxation.pass, Relaxation.sweepDue,
      Visit.make_eq_listed]
    decide +kernel
  obtain ⟨v, hv⟩ : ∃ v, session.visits[3]? = some v :=
    ⟨_, List.getElem?_eq_getElem (hvisits.1 ▸ by decide)⟩
  refine ⟨⟨v, hv, hdrawn 3 v hv⟩, ?_, ?_⟩
  · rw [hsource, hvisits.1]
    rfl
  · rw [hindices, hvisits.2]
    rfl

end PointRelaxation
