import Mathlib.Order.Bounds.Basic
import PointRelaxation.Command.Run
import PointRelaxation.Proofs.Exact
import PointRelaxation.Proofs.Pass

/-!
# Loops of passes as iterated passes

A loop stops as soon as every point is stable, and the command counts passes where the solver spends
a budget. Neither makes a difference to passes that are simply run one after the other, because a
pass over a stable scene does nothing.

* `Relaxation.iterate`: passes in a row, whether or not there is anything left to do.
* `Relaxation.aftermath_run`: a loop leaves what they leave.
* `Relaxation.exists_last_report`: the last pass of a loop that did something.
* `Relaxation.run_add`: two loops in a row are one.
* `Command.drive_eq_run`: the loop of the command is that of the solver.
* `Command.printed_of_relax`: so the command prints what the solver leaves.
-/

namespace PointRelaxation

variable {α σ β : Type}

/-- What passes in a row leave behind: the relaxation, the scene, and the fault that ended them. -/
structure Aftermath (α σ : Type) where
  relaxation : Relaxation α σ
  scene : Scene α
  fault : Option (Fault α)

def Run.aftermath (run : Run α σ β) : Aftermath α σ := ⟨run.relaxation, run.scene, run.fault⟩

/-- A run and the run that went on from its end, as one. -/
def Run.append (first rest : Run α σ β) : Run α σ β :=
  { rest with
    count := rest.count + first.count
    notes := first.notes ++ rest.notes
    last := rest.last.or first.last }

/-- A run that does nothing more adds nothing. -/
lemma Run.append_idle {first : Run α σ β} (hf : first.fault = none) :
    first.append ⟨first.relaxation, first.scene, 0, [], none, none⟩ = first := by
  obtain ⟨relaxation, scene, count, notes, last, fault⟩ := first
  obtain rfl : fault = none := hf
  simp [append]

/-- A solution of a stable scene does not tell the limit. -/
lemma Solution.ofRun_eq_of_allStable {run run' : Run α σ β} (hscene : run.scene = run'.scene)
    (hlast : run.last = run'.last)
    (hpasses : run.relaxation.passes = run'.relaxation.passes) (hs : run'.scene.allStable)
    (m n : ℕ) : Solution.ofRun m run = Solution.ofRun n run' := by
  unfold Solution.ofRun
  simp only [hscene, hlast, hpasses, hs, if_true]

/-- The same relaxation with another limit on its passes. -/
def Relaxation.withLimit (limit : ℕ) (r : Relaxation α σ) : Relaxation α σ :=
  { r with options := { r.options with maxPasses := limit } }

variable [Scalar α] [Draws σ α]

/-- Runs `n` passes, idle ones included. A fault ends them early. -/
def Relaxation.iterate : (n : ℕ) → Relaxation α σ → Scene α → Aftermath α σ
  | 0, r, scene => ⟨r, scene, none⟩
  | n + 1, r, scene =>
    let p := r.pass scene
    match p.report with
    | .error f => ⟨p.relaxation, p.scene, some f⟩
    | .ok _ => iterate n p.relaxation p.scene

namespace Relaxation

variable {r : Relaxation α σ} {scene : Scene α} {note : Pass α σ → List β} {limit m n : ℕ}

/-! ## Iterated passes -/

lemma iterate_succ_of_error {f : Fault α} (hr : (r.pass scene).report = .error f) :
    r.iterate (n + 1) scene = ⟨(r.pass scene).relaxation, (r.pass scene).scene, some f⟩ := by
  rw [iterate]
  simp only [hr]

lemma iterate_succ_of_ok {report : PassReport} (hr : (r.pass scene).report = .ok report) :
    r.iterate (n + 1) scene = (r.pass scene).relaxation.iterate n (r.pass scene).scene := by
  rw [iterate]
  simp only [hr]

/-- A stable scene absorbs all passes. -/
lemma iterate_of_allStable (h : scene.allStable) : r.iterate n scene = ⟨r, scene, none⟩ := by
  induction n with
  | zero => rfl
  | succ n ih =>
    have hidle := r.pass_idle h
    rw [iterate_succ_of_ok (congrArg Pass.report hidle), hidle]
    exact ih

/-- After `m` passes, `n` more are `m + n` passes. -/
lemma iterate_add (hf : (r.iterate m scene).fault = none) :
    r.iterate (m + n) scene =
      (r.iterate m scene).relaxation.iterate n (r.iterate m scene).scene := by
  induction m generalizing r scene with
  | zero => rw [Nat.zero_add, iterate]
  | succ m ih =>
    rw [Nat.succ_add]
    rcases hr : (r.pass scene).report with f | report
    · rw [iterate_succ_of_error hr] at hf
      exact absurd hf (Option.some_ne_none f)
    · rw [iterate_succ_of_ok hr] at hf ⊢
      rw [iterate_succ_of_ok hr]
      exact ih hf

@[simp] lemma options_iterate : (r.iterate n scene).relaxation.options = r.options := by
  induction n generalizing r scene with
  | zero => rfl
  | succ n ih =>
    have hpass : (r.pass scene).relaxation.options = r.options := options_pass
    rcases hr : (r.pass scene).report with f | report
    · rw [iterate_succ_of_error hr, hpass]
    · rw [iterate_succ_of_ok hr, ih, hpass]

/-- What every replacement keeps, any number of passes keep. -/
lemma iterate_keeps {γ : Type} (f : Scene α → γ) (hf : ∀ scene p, f (scene.replace p) = f scene) :
    f (r.iterate n scene).scene = f scene := by
  induction n generalizing r scene with
  | zero => rfl
  | succ n ih =>
    have hpass : f (r.pass scene).scene = f scene := pass_keeps f hf
    rcases hr : (r.pass scene).report with fault | report
    · rw [iterate_succ_of_error hr, hpass]
    · rw [iterate_succ_of_ok hr, ih, hpass]

@[simp] lemma names_iterate : (r.iterate n scene).scene.names = scene.names :=
  iterate_keeps Scene.names Scene.names_replace

@[simp] lemma decimals_iterate : (r.iterate n scene).scene.decimals = scene.decimals :=
  iterate_keeps Scene.decimals Scene.decimals_replace

/-- A run that is completed was completed up to each of its passes. -/
lemma fault_iterate_of_le (hle : m ≤ n) (hf : (r.iterate n scene).fault = none) :
    (r.iterate m scene).fault = none := by
  induction m generalizing n r scene with
  | zero => rfl
  | succ m ih =>
    obtain ⟨k, rfl⟩ := Nat.exists_eq_add_of_le hle
    rw [Nat.succ_add] at hf
    rcases hr : (r.pass scene).report with f | report
    · rw [iterate_succ_of_error hr] at hf
      exact absurd hf (Option.some_ne_none f)
    · rw [iterate_succ_of_ok hr] at hf ⊢
      exact ih (Nat.le_add_right m k) hf

/-- The pass behind `n` others. -/
def passBehind (n : ℕ) (r : Relaxation α σ) (scene : Scene α) : Pass α σ :=
  (r.iterate n scene).relaxation.pass (r.iterate n scene).scene

/-- Each pass of a completed run is completed, and the run goes on from what it leaves. -/
lemma exists_report_passBehind (hlt : m < n) (hf : (r.iterate n scene).fault = none) :
    ∃ report, (r.passBehind m scene).report = .ok report ∧ r.iterate (m + 1) scene =
      ⟨(r.passBehind m scene).relaxation, (r.passBehind m scene).scene, none⟩ := by
  have hm := fault_iterate_of_le (Nat.le_of_lt hlt) hf
  have hnext := fault_iterate_of_le hlt hf
  rw [Nat.succ_eq_add_one, iterate_add hm] at hnext
  rw [iterate_add hm]
  rcases hr : (r.passBehind m scene).report with f | report
  · rw [iterate_succ_of_error hr] at hnext
    exact absurd hnext (Option.some_ne_none f)
  · exact ⟨report, rfl, iterate_succ_of_ok hr⟩

/-- A loop that stops at a stable scene leaves what as many passes as it may run would leave. -/
lemma aftermath_run : (r.run note limit scene).aftermath = r.iterate limit scene := by
  induction limit generalizing r scene with
  | zero => rfl
  | succ limit ih =>
    by_cases h : scene.allStable
    · rw [run_of_allStable h, iterate_of_allStable h]
      rfl
    · rcases hr : (r.pass scene).report with f | report
      · rw [run_succ_of_error h hr, iterate_succ_of_error hr]
        rfl
      · rw [run_succ_of_ok h hr, iterate_succ_of_ok hr, ← ih]
        rfl

/-! ## What a loop counts -/

/-- Each pass that a loop completes is counted by the relaxation. -/
lemma passes_run (hf : (r.run note limit scene).fault = none) :
    (r.run note limit scene).relaxation.passes = r.passes + (r.run note limit scene).count := by
  refine run_induction (P := fun _ r _ run => run.relaxation.passes = r.passes + run.count) ?_ ?_ hf
  · exact fun _ _ _ _ => rfl
  · intro limit r scene report rest h hr hrest
    have hcount : (r.pass scene).relaxation.passes = r.passes + 1 := passes_pass h hr
    dsimp only
    omega

/-- A loop counts the least number of passes that leaves every point stable, or all it may run. -/
lemma isLeast_count_run (hf : (r.run note limit scene).fault = none) :
    IsLeast {n | n = limit ∨ n ≤ limit ∧ (r.iterate n scene).scene.allStable}
      (r.run note limit scene).count := by
  refine run_induction (P := fun limit r scene run =>
    IsLeast {n | n = limit ∨ n ≤ limit ∧ (r.iterate n scene).scene.allStable} run.count) ?_ ?_ hf
  · intro limit r scene hstop
    refine ⟨?_, fun n _ => Nat.zero_le n⟩
    exact hstop.imp Eq.symm fun h => ⟨Nat.zero_le limit, h⟩
  · intro limit r scene report rest h hr hrest
    -- one pass more before the rest, in the loop as in the iteration
    have hset : ∀ n, (n + 1 = limit + 1 ∨ n + 1 ≤ limit + 1 ∧
          (r.iterate (n + 1) scene).scene.allStable) ↔
        (n = limit ∨ n ≤ limit ∧
          ((r.pass scene).relaxation.iterate n (r.pass scene).scene).scene.allStable) := by
      intro n
      rw [iterate_succ_of_ok hr, Nat.succ_inj, Nat.succ_le_succ_iff]
    refine ⟨(hset rest.count).2 hrest.1, ?_⟩
    rintro (_ | n) hn
    · -- no passes are not enough, since some point is unstable
      rcases hn with hn | ⟨-, hs⟩
      · exact absurd hn (Nat.succ_ne_zero limit).symm
      · exact absurd hs h
    · exact Nat.succ_le_succ (hrest.2 ((hset n).1 hn))

/-! ## The last pass -/

/-- A run that is completed and leaves a point unstable has spent its budget. -/
lemma count_of_not_allStable (hf : (r.run note limit scene).fault = none) :
    ¬ (r.run note limit scene).scene.allStable → (r.run note limit scene).count = limit := by
  refine run_induction (P := fun limit _ _ run => ¬ run.scene.allStable → run.count = limit)
    ?_ ?_ hf
  · intro limit r scene hstop hunstable
    exact (hstop.resolve_right hunstable).symm
  · intro limit r scene report rest h hr hrest hunstable
    exact congrArg (· + 1) (hrest hunstable)

/-- A completed run did nothing, or its scene and its last report are those of its last pass, which
found something to do. -/
lemma exists_last_report (hf : (r.run note limit scene).fault = none) :
    ((r.run note limit scene).count = 0 ∧ (r.run note limit scene).scene = scene ∧
        (r.run note limit scene).last = none) ∨
      ∃ n report, (r.run note limit scene).count = n + 1 ∧
        ¬ (r.iterate n scene).scene.allStable ∧
        (r.passBehind n scene).report = .ok report ∧
        (r.run note limit scene).scene = (r.passBehind n scene).scene ∧
        (r.run note limit scene).last = some report := by
  refine run_induction (P := fun _ r scene run =>
    (run.count = 0 ∧ run.scene = scene ∧ run.last = none) ∨
      ∃ n report, run.count = n + 1 ∧ ¬ (r.iterate n scene).scene.allStable ∧
        (r.passBehind n scene).report = .ok report ∧
        run.scene = (r.passBehind n scene).scene ∧ run.last = some report) ?_ ?_ hf
  · exact fun _ _ _ _ => .inl ⟨rfl, rfl, rfl⟩
  · intro limit r scene report rest h hr hrest
    right
    rcases hrest with ⟨hcount, hscene, hlast⟩ | ⟨n, report', hcount, hs, hr', hscene, hlast⟩
    · exact ⟨0, report, by simp [hcount], h, hr, hscene, by simp [hlast]⟩
    · -- the passes behind the first one are one place further on
      unfold passBehind at hr' hscene ⊢
      rw [← iterate_succ_of_ok hr] at hs hr' hscene
      exact ⟨n + 1, report', by simp [hcount], hs, hr', hscene, by simp [hlast]⟩

/-! ## Budgets -/

/-- Two loops in a row are one. -/
lemma run_add (hf : (r.run note m scene).fault = none) :
    r.run note (m + n) scene =
      (r.run note m scene).append
        ((r.run note m scene).relaxation.run note n (r.run note m scene).scene) := by
  refine run_induction (P := fun m r scene run =>
    r.run note (m + n) scene = run.append (run.relaxation.run note n run.scene)) ?_ ?_ hf
  · rintro m r scene (rfl | h)
    · simp [Run.append]
    · simp [run_of_allStable h, Run.append]
  · intro m r scene report rest h hr hrest
    rw [Nat.succ_add, run_succ_of_ok h hr, hrest]
    simp [Run.append, Nat.add_assoc]

/-- A loop that ends with every point stable does nothing more with a larger budget. -/
lemma run_of_le (hle : m ≤ n) (hf : (r.run note m scene).fault = none)
    (hs : (r.run note m scene).scene.allStable) :
    r.run note n scene = r.run note m scene := by
  obtain ⟨k, rfl⟩ := Nat.exists_eq_add_of_le hle
  rw [run_add hf, run_of_allStable hs, Run.append_idle hf]

/-- No pass looks at the limit. -/
lemma pass_withLimit (n : ℕ) (r : Relaxation α σ) (scene : Scene α) :
    (r.withLimit n).pass scene =
      { r.pass scene with relaxation := (r.pass scene).relaxation.withLimit n } := by
  by_cases h : scene.allStable
  · rw [pass_idle h, pass_idle h]
    rfl
  · have hsweep : (r.withLimit n).sweepDue scene = r.sweepDue scene := rfl
    rcases hf : (r.sweepDue scene).fault with _ | f
    · rw [pass_eq_of_none h hf, pass_eq_of_none h (hsweep ▸ hf)]
      rfl
    · rw [pass_eq_of_some h hf, pass_eq_of_some h (hsweep ▸ hf)]
      rfl

/-- A loop spends the budget it is given, whatever limit the options name and whatever is noted of
its passes. -/
lemma run_withLimit {γ : Type} (note : Pass α σ → List β) (note' : Pass α σ → List γ)
    (n limit : ℕ) (r : Relaxation α σ) (scene : Scene α) :
    ((r.withLimit n).run note limit scene).relaxation =
        (r.run note' limit scene).relaxation.withLimit n ∧
      ((r.withLimit n).run note limit scene).scene = (r.run note' limit scene).scene ∧
      ((r.withLimit n).run note limit scene).last = (r.run note' limit scene).last ∧
      ((r.withLimit n).run note limit scene).fault = (r.run note' limit scene).fault := by
  induction limit generalizing r scene with
  | zero => exact ⟨rfl, rfl, rfl, rfl⟩
  | succ limit ih =>
    by_cases h : scene.allStable
    · rw [run_of_allStable h, run_of_allStable h]
      exact ⟨rfl, rfl, rfl, rfl⟩
    · -- both loops make the same pass, and go on with the same difference in their limits
      have hpass := pass_withLimit n r scene
      have hreport : ((r.withLimit n).pass scene).report = (r.pass scene).report := by rw [hpass]
      rcases hr : (r.pass scene).report with f | report
      · rw [run_succ_of_error h hr, run_succ_of_error h (hreport.trans hr), hpass]
        exact ⟨rfl, rfl, rfl, rfl⟩
      · rw [run_succ_of_ok h hr, run_succ_of_ok h (hreport.trans hr), hpass]
        obtain ⟨hrelaxation, hscene, hlast, hfault⟩ :=
          ih (r.pass scene).relaxation (r.pass scene).scene
        exact ⟨hrelaxation, hscene, congrArg (Option.or · (some report)) hlast, hfault⟩

end Relaxation

/-! ## The loop of the command -/

/-- The solver leaves the scene of its run, whether or not a fault ended it. -/
lemma Solver.state_solve {threshold : Level} {entropy : ℕ} {options : Options Float}
    {source : Source} (hsource : Source.ofSeed entropy options.seed = .ok source)
    (default : Options Float) (scene : Scene Float) :
    (solve threshold entropy (some options) default scene).state =
      (Relaxation.solve (passRecords threshold) options source scene).scene := by
  unfold solve Logged.bracket
  simp only [Option.getD_some, hsource]
  rcases (Relaxation.solve (passRecords threshold) options source scene).fault with _ | f
  · split_ifs <;> rfl
  · split_ifs <;> rfl

namespace Command

/-- The loop of the command is the loop of the solver, with what is left of the limit as budget. -/
lemma drive_eq_run (note : Pass α σ → List β) (limit : ℕ) (r : Relaxation α σ) (scene : Scene α) :
    drive note limit r scene = r.run note (limit - r.passes) scene := by
  -- on what is left of the limit, of which a completed pass takes one
  induction hbudget : limit - r.passes generalizing r scene with
  | zero =>
    have hspent : limit ≤ r.passes := Nat.sub_eq_zero_iff_le.1 hbudget
    rw [drive, dif_pos (.inr hspent)]
    rfl
  | succ budget ih =>
    by_cases h : scene.allStable
    · rw [drive, dif_pos (.inl h), Relaxation.run_of_allStable h]
    · have hleft : ¬ (scene.allStable ∨ limit ≤ r.passes) := by
        rintro (hs | hspent)
        · exact h hs
        · omega
      rw [drive, dif_neg hleft]
      dsimp only
      split
      · rename_i f hr
        rw [Relaxation.run_succ_of_error h hr]
      · rename_i report hr
        have hcount : (r.pass scene).relaxation.passes = r.passes + 1 :=
          Relaxation.passes_pass h hr
        have hrest : limit - (r.pass scene).relaxation.passes = budget := by omega
        rw [Relaxation.run_succ_of_ok h hr, ih _ _ hrest]

/-- What the command prints of the scene it relaxed is what it would print of the scene that the
solver leaves. -/
lemma printed_of_relax {entropy : ℕ} {s : Settings} {threshold : Level} {options : Options Float}
    {loading : Record} {scene : Scene Float} {outcome : Outcome}
    (h : relax entropy s threshold options loading scene = .ok outcome) (default : Options Float) :
    printed (Solver.solve threshold entropy (some options) default scene).state
      (s.unit.getD nothingText) = .ok outcome.output := by
  unfold relax at h
  obtain ⟨source, hsource, hrun⟩ := bind_eq_ok.1 h
  rw [Solver.state_solve hsource default scene]
  rw [drive_eq_run] at hrun
  dsimp only at hrun
  split at hrun
  · cases hrun
  · obtain ⟨output, houtput, hrest⟩ := bind_eq_ok.1 hrun
    obtain ⟨written, -, hrest⟩ := bind_eq_ok.1 hrest
    obtain rfl := Except.ok.inj hrest
    exact houtput

end Command

/-- Solving a scene is running passes one after the other. The solver leaves the scene, the source
and the fault of as many passes as its options allow, run whether or not anything is left to do. If
no fault ends it, it counts the least number of passes behind which every point is stable, or all of
them if there is none; and if every point is stable at its end, a larger limit changes nothing. A
loop with a budget of `m + n` passes goes on from `m` passes with `n` more. And the command's own
loop is that of the solver. -/
theorem solve_eq_iterate (note : Pass α σ → List β) (options : Options α) (source : σ)
    (scene : Scene α) :
    let run := Relaxation.solve note options source scene
    let solution := Solution.ofRun options.maxPasses run
    run.aftermath = (Relaxation.start options source).iterate options.maxPasses scene ∧
    (run.fault = none →
      IsLeast {n | n = options.maxPasses ∨ n ≤ options.maxPasses ∧
        ((Relaxation.start options source).iterate n scene).scene.allStable} solution.passes) ∧
    (∀ n, options.maxPasses ≤ n → run.fault = none → solution.success →
      let longer := Relaxation.solve note { options with maxPasses := n } source scene
      longer.fault = none ∧ longer.scene = run.scene ∧
        longer.relaxation.source = run.relaxation.source ∧ Solution.ofRun n longer = solution) ∧
    (∀ (r : Relaxation α σ) (scene : Scene α) (m n : ℕ),
      let first := r.iterate m scene
      first.fault = none →
        (r.run note (m + n) scene).aftermath = first.relaxation.iterate n first.scene ∧
        (r.run note (m + n) scene).aftermath =
          (first.relaxation.run note n first.scene).aftermath) ∧
    Command.drive note options.maxPasses (.start options source) scene = run := by
  intro run solution
  refine ⟨Relaxation.aftermath_run, ?_, ?_, ?_, ?_⟩
  · intro hf
    have hpasses : _ = 0 + _ := Relaxation.passes_run hf
    have hcount : solution.passes = run.count := hpasses.trans (Nat.zero_add _)
    rw [hcount]
    exact Relaxation.isLeast_count_run hf
  · intro n hle hf hs longer
    obtain ⟨hrelaxation, hscene, hlast, hfault⟩ := Relaxation.run_withLimit note note n n
      (.start options source) scene
    rw [Relaxation.run_of_le hle hf hs] at hrelaxation hscene hlast hfault
    have hpasses := congrArg Relaxation.passes hrelaxation
    have hsource := congrArg Relaxation.source hrelaxation
    exact ⟨hfault.trans hf, hscene, hsource,
      Solution.ofRun_eq_of_allStable hscene hlast hpasses hs n options.maxPasses⟩
  · intro r scene m n first hf
    have hafter : (r.run note (m + n) scene).aftermath =
        first.relaxation.iterate n first.scene := by
      rw [Relaxation.aftermath_run, Relaxation.iterate_add hf]
    exact ⟨hafter, hafter.trans Relaxation.aftermath_run.symm⟩
  · rw [Command.drive_eq_run]
    rfl

/-- Two passes are the least that make the pursuit stable, and a limit of nine would have left the
same solution as that of five. -/
theorem solve_eq_iterate_pursuit :
    IsLeast {n | n = 5 ∨ n ≤ 5 ∧ ((Relaxation.start Exact.pursuitOptions
      Exact.pursuitDraws).iterate n Exact.pursuit).scene.allStable} 2 ∧
    Solution.ofRun 9 (Relaxation.solve (β := Unit) (fun _ => [])
      { Exact.pursuitOptions with maxPasses := 9 } Exact.pursuitDraws Exact.pursuit) =
        Solution.ofRun 5 Exact.pursuitRun := by
  obtain ⟨hf, hstable, hpasses⟩ := Exact.pursuitRun_spec
  have h := solve_eq_iterate (β := Unit) (fun _ => []) Exact.pursuitOptions Exact.pursuitDraws
    Exact.pursuit
  have hle : Exact.pursuitOptions.maxPasses ≤ 9 := by decide
  exact ⟨hpasses ▸ h.2.1 hf, (h.2.2.1 9 hle hf hstable).2.2.2⟩

end PointRelaxation
