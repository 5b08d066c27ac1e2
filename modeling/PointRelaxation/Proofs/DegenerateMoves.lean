import PointRelaxation.Proofs.Binary64Counts
import PointRelaxation.Proofs.Evaluation
import PointRelaxation.Proofs.Pass
import PointRelaxation.Proofs.Settling

/-!
# Moves to degenerate candidates

A degenerate candidate is given the lowest score there is. It therefore loses to every candidate of
a larger score, and to the point's own cell if that is among the candidates. But where neither is
there, the point is sent to the best of candidates that are all scored lowest, which is the first
one whether or not it is degenerate.

* `LeastScalar`: scalars whose lowest score is below every number.
* `moves_justified`: what a move of any visit rests on.
* `moves_to_degenerate`: a point that is sent to its only candidate, a degenerate one.
-/

namespace PointRelaxation

/-- Scalars whose lowest score is below every number. -/
class LeastScalar (α : Type) [Scalar α] : Prop extends OrderedScalar α where
  lowest_le {x : α} : x ≤ x → Scalar.lowest ≤ x

namespace Binary64

lemma count?_lowest : count? (Scalar.lowest : Float) = some (-farCount : ℤ) := by
  decide +kernel

end Binary64

instance : LeastScalar Float where
  lowest_le {x} h := by
    obtain ⟨z, -, hz, -⟩ := (Binary64.float_le_iff_count x x).1 h
    rw [Binary64.le_iff_of_count Binary64.count?_lowest hz]
    exact (abs_le.1 (Binary64.abs_le_of_count hz)).1

variable {α : Type} [Scalar α]

namespace Visit

/-- What the move of a visit rests on. Either the point came to a cell where its rule has a value,
which is its score; or its own cell was not among the candidates, all of which were scored lowest,
and it came to the first of them. -/
def Justified (places : Places α) (v : Visit α) : Prop :=
  ∃ here c, v.found.cell v.scene.decimals = .ok here ∧
    Grid.place v.scene.decimals c = .ok v.point.position ∧ c ∈ v.point.candidates.cells ∧
    ((v.found.rule.degenerateAt v.scene.decimals places c = false ∧
        v.found.rule v.point.position places = .ok v.point.score) ∨
      (here ∉ v.point.candidates.cells ∧ v.point.candidates.cells.head? = some c ∧
        ∀ e ∈ v.point.candidates.entries, ∃ t, e.2 = some t ∧ Scalar.Same t Scalar.lowest))

omit [Scalar α] in
lemma fault?_of_moved {v : Visit α} (h : v.moved = true) : v.fault? = none := by
  unfold moved at h
  unfold fault?
  split at h
  · rename_i hprogress
    rw [hprogress]
  · cases h

/-- If the lowest score is the best one, the first candidate is the best. -/
lemma head?_of_leads [LeastScalar α] {m : Candidates α} {c : Cell}
    (hleads : Candidates.Leads m.entries (c, Scalar.lowest))
    (hnum : ∀ e ∈ m.entries, ∃ t, e.2 = some t ∧ t ≤ t) : m.cells.head? = some c := by
  obtain ⟨before, after, hm, hbefore, -⟩ := hleads
  unfold Candidates.cells
  rw [hm] at hnum ⊢
  cases before with
  | nil => rfl
  | cons e before =>
    obtain ⟨t, ht, -, hlt⟩ := hbefore e List.mem_cons_self
    obtain ⟨t', ht', hnumber⟩ := hnum e List.mem_cons_self
    obtain rfl := Option.some.inj (ht.symm.trans ht')
    exact absurd (LeastScalar.lowest_le hnumber) hlt

/-- If the lowest score is the best one, every candidate has it. -/
lemma same_lowest_of_leads [LeastScalar α] {m : Candidates α} {c : Cell}
    (hleads : Candidates.Leads m.entries (c, Scalar.lowest))
    (hnum : ∀ e ∈ m.entries, ∃ t, e.2 = some t ∧ t ≤ t) :
    ∀ e ∈ m.entries, ∃ t, e.2 = some t ∧ Scalar.Same t Scalar.lowest := by
  intro e he
  obtain ⟨t, ht, hnumber⟩ := hnum e he
  obtain ⟨t', ht', hle⟩ := hleads.le_top OrderedScalar.lowest_le_lowest he
  obtain rfl := Option.some.inj (ht.symm.trans ht')
  exact ⟨t, ht, hle, LeastScalar.lowest_le hnumber⟩

/-- With any cloud of candidates the move of a visit is justified. -/
lemma justified_ofCloud [LeastScalar α] {view : View α} {scene : Scene α} {p : Point α}
    {m : Candidates α} (h : (ofCloud view scene p m).moved = true) :
    (ofCloud view scene p m).Justified (view.places scene) := by
  obtain ⟨hfault, hsettle⟩ := ofCloud_of_fault?_eq_none (fault?_of_moved h)
  have hnum := Candidates.number_of_evaluate hfault
  obtain ⟨here, c, s, hhere, hbest, hcase⟩ := Point.settle_eq_ok hsettle
  rcases hcase with ⟨-, -, -, -, hstays⟩ | ⟨hbeats, position, hplace, hq, -⟩
  · exact absurd (h.symm.trans hstays) Bool.noConfusion
  -- the score of the chosen cell is that of a verdict: either it is degenerate, or the rule has it
  obtain ⟨-, hleads⟩ := Candidates.leads_of_best hnum hbest
  have hcandidates : (ofCloud view scene p m).point.candidates =
      (m.evaluate scene.decimals p.rule (view.places scene)).candidates := by
    rw [hq]
    rfl
  refine ⟨here, c, hhere, by rw [hq]; exact hplace, ?_, ?_⟩
  · rw [hcandidates]
    exact List.mem_map_of_mem hleads.mem
  obtain ⟨v, hv, hs⟩ := Candidates.evaluate_scored hfault _ hleads.mem
  obtain rfl := Option.some.inj hs
  obtain ⟨-, hscore⟩ := Verdict.ofCell_spec hv
  unfold Rule.ScoresAt at hscore
  split_ifs at hscore with hdegenerate
  · -- the best score is the lowest one, so the own cell was not there to be preferred
    rw [hscore] at hleads hbeats
    rw [hcandidates]
    refine .inr ⟨fun hmem => ?_, head?_of_leads hleads hnum, same_lowest_of_leads hleads hnum⟩
    obtain ⟨⟨c', s⟩, he, rfl⟩ := List.mem_map.1 hmem
    obtain ⟨t, ht, hnumber⟩ := hnum _ he
    obtain rfl : s = some t := ht
    exact hbeats t (Candidates.score?_eq_some_iff.2 he) (LeastScalar.lowest_le hnumber)
  · obtain ⟨u, hu, hrule⟩ := hscore
    obtain rfl := Except.ok.inj (hu.symm.trans hplace)
    refine .inl ⟨Bool.eq_false_iff.2 hdegenerate, ?_⟩
    rw [hq]
    exact hrule

end Visit

variable {σ : Type} [Draws σ α]

/-- Whatever the view, the scene, the point and its candidates are, and in every pass, the move of a
visit is justified. -/
theorem moves_justified [LeastScalar α] :
    (∀ (view : View α) (scene : Scene α) (p : Point α) (m : Candidates α),
      (Visit.ofCloud view scene p m).moved = true →
        (Visit.ofCloud view scene p m).Justified (view.places scene)) ∧
    ∀ (r : Relaxation α σ) (scene : Scene α), ∀ v ∈ (r.pass scene).visits, v.moved = true →
      v.Justified ((r.pass scene).view.places v.scene) := by
  refine ⟨fun view scene p m => Visit.justified_ofCloud, fun r scene v hv hmoved => ?_⟩
  obtain ⟨scene', p, s, -, rfl, -⟩ := Relaxation.exists_of_mem_visits_pass hv
  rcases Visit.make_eq r.options (r.pass scene).view scene' p s with ⟨f, hmake⟩ | ⟨m, hmake⟩
  · rw [hmake] at hmoved
    cases hmoved
  · rw [hmake] at hmoved ⊢
    exact Visit.justified_ofCloud hmoved

/-- A visit to a point at the origin with a single candidate, a quarter of a unit away. -/
def nudge (rule : Rule Float) : Visit Float :=
  .ofCloud .live (.empty 2) (.unvisited "A" rule ⟨0.0, 0.0⟩) (.ofCells [⟨25, 0⟩] (by decide))

/-- A point that is sent to its only candidate, where its rule has a value. -/
theorem moves_justified_nudge : (nudge fun _ _ => .ok 1.0).moved = true ∧
    (nudge fun _ _ => .ok 1.0).Justified (Scene.empty 2).places := by
  have hmoved : (nudge fun _ _ => .ok 1.0).moved = true := by decide +kernel
  exact ⟨hmoved, (moves_justified (σ := Script Float)).1 _ _ _ _ hmoved⟩

namespace Exact

/-- A point whose rule has a value nowhere. -/
def lost : Scene Exact :=
  { solitude with
    points := [.unvisited "A" (fun _ _ => .error .divisionByZero) startingPoint]
    nodup := List.nodup_singleton _ }

/-- A pass that proposes the next cell to the east only. -/
def lostPass : Pass Exact (Script Exact) :=
  (Relaxation.start { pursuitOptions with samples := 1, samples_pos := by decide }
    (.ofList [0.0, 0.5])).pass lost

lemma exists_moved_lostPass : ∃ v ∈ lostPass.visits, v.moved = true := by
  have hmoved : lostPass.visits.any Visit.moved = true := by
    unfold lostPass
    simp only [Relaxation.pass, Relaxation.sweepDue, Visit.make_eq_listed]
    decide +kernel
  exact List.any_eq_true.1 hmoved

end Exact

/-- A rule that has a value nowhere is degenerate at each cell that stands for a position. -/
lemma degenerateAt_of_place {decimals : ℤ} {places : Places α} {c : Cell} {v : Vec α}
    (h : Grid.place decimals c = .ok v) :
    Rule.degenerateAt decimals (fun _ _ => .error .divisionByZero) places c = true := by
  unfold Rule.degenerateAt
  rw [h]
  rfl

/-- A point that is sent to its only candidate, where the geometry of its rule is degenerate, by one
visit and by a pass. -/
theorem moves_to_degenerate :
    (¬ ∀ (view : View Float) (scene : Scene Float) (p : Point Float) (m : Candidates Float),
      (Visit.ofCloud view scene p m).moved = true →
        ∃ c, Grid.place scene.decimals c = .ok (Visit.ofCloud view scene p m).point.position ∧
          p.rule.degenerateAt scene.decimals (view.places scene) c = false) ∧
    ¬ ∀ (r : Relaxation Exact (Script Exact)) (scene : Scene Exact), ∀ v ∈ (r.pass scene).visits,
      v.moved = true → ∃ c, Grid.place v.scene.decimals c = .ok v.point.position ∧
        v.found.rule.degenerateAt v.scene.decimals ((r.pass scene).view.places v.scene) c =
          false := by
  constructor
  · intro h
    have hmoved : (nudge fun _ _ => .error .divisionByZero).moved = true := by decide +kernel
    obtain ⟨c, hplace, hdegenerate⟩ := h _ _ _ _ hmoved
    exact Bool.noConfusion ((degenerateAt_of_place hplace).symm.trans hdegenerate)
  · intro h
    obtain ⟨v, hv, hmoved⟩ := Exact.exists_moved_lostPass
    obtain ⟨c, hplace, hdegenerate⟩ := h _ _ v hv hmoved
    obtain ⟨scene, p, s, hp, rfl, -⟩ := Relaxation.exists_of_mem_visits_pass hv
    obtain rfl := List.mem_singleton.1 (List.mem_of_mem_filter hp)
    rw [Visit.found_make] at hdegenerate
    exact Bool.noConfusion ((degenerateAt_of_place hplace).symm.trans hdegenerate)

end PointRelaxation
