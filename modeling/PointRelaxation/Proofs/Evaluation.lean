import PointRelaxation.Proofs.Choice

/-!
# How far an evaluation comes

An evaluation scores the cells of a map in order and stops at the first one at which the rule fails.
What it records is said here by the rule itself: `Rule.degenerateAt` tells the cells whose geometry
is degenerate, `Rule.ScoresAt` the score of a cell.

* `Candidates.evaluate_of_scored`: an evaluation that meets no fault.
* `Candidates.evaluate_of_failsAt`: an evaluation that a fault ends, and what it leaves.
* `Candidates.exists_failsAt`: each fault of an evaluation is that of a rule at some cell.
-/

namespace PointRelaxation

variable {α : Type} [Scalar α]

/-! ## What a rule makes of a cell -/

namespace Rule

/-- A rule that fails nowhere but at positions of degenerate geometry. -/
def Contained (rule : Rule α) (places : Places α) : Prop :=
  ∀ v f, rule v places = .error f → f.isDegenerate

/-- Whether the geometry of a rule is degenerate at a cell: the rule fails so at the position of the
cell, or its value there is no number. -/
def degenerateAt (decimals : ℤ) (rule : Rule α) (places : Places α) (c : Cell) : Bool :=
  match Grid.place decimals c with
  | .error _ => false
  | .ok v =>
    match rule v places with
    | .error f => f.isDegenerate
    | .ok s => Scalar.IsUndefined s

/-- The score of a cell: the lowest one if the geometry is degenerate there, and the value of the
rule otherwise. -/
def ScoresAt (decimals : ℤ) (rule : Rule α) (places : Places α) (c : Cell) (s : α) : Prop :=
  if rule.degenerateAt decimals places c then s = Scalar.lowest
  else ∃ v, Grid.place decimals c = .ok v ∧ rule v places = .ok s

/-- A rule has a score for each cell before the one at place `i`, and fails there. -/
structure FailsAt (decimals : ℤ) (rule : Rule α) (places : Places α) (cells : List Cell) (i : ℕ)
    (f : Fault α) : Prop where
  scores : ∀ c ∈ cells.take i, ∃ s, rule.ScoresAt decimals places c s
  fails : ∃ c v, cells[i]? = some c ∧ Grid.place decimals c = .ok v ∧ rule v places = .error f ∧
    ¬ f.isDegenerate

end Rule

namespace Verdict

variable {decimals : ℤ} {rule : Rule α} {places : Places α} {c : Cell}

lemma ofCell_of_place {v : Vec α} (h : Grid.place decimals c = .ok v) :
    ofCell decimals rule places c = ofOutcome (rule v places) := by
  unfold ofCell
  rw [h]
  rfl

/-- The verdict on a cell is the score of the rule there. -/
lemma ofCell_spec {v : Verdict α} (h : ofCell decimals rule places c = .ok v) :
    v.isDegenerate = rule.degenerateAt decimals places c ∧
      rule.ScoresAt decimals places c v.score := by
  obtain ⟨p, hp, h⟩ := bind_eq_ok.1 h
  unfold Rule.ScoresAt Rule.degenerateAt
  simp only [hp]
  unfold ofOutcome at h
  rcases hr : rule p places with f | s
  · rw [hr] at h
    by_cases hf : f.isDegenerate
    · simp only [hf, if_true, Except.ok.injEq] at h
      simp [← h, hf, isDegenerate, score]
    · simp [hf] at h
  · rw [hr] at h
    by_cases hs : Scalar.IsUndefined s
    · simp only [hs, if_true, Except.ok.injEq] at h
      simp [← h, hs, isDegenerate, score]
    · simp only [hs, if_false, Except.ok.injEq] at h
      simp [← h, hs, isDegenerate, score, hr]

/-- A cell has a verdict exactly if the rule has a score there. -/
lemma exists_ofCell_iff : (∃ v, ofCell decimals rule places c = .ok v) ↔
    ∃ s, rule.ScoresAt decimals places c s := by
  constructor
  · rintro ⟨v, hv⟩
    exact ⟨v.score, (ofCell_spec hv).2⟩
  · rintro ⟨s, hs⟩
    unfold Rule.ScoresAt at hs
    split_ifs at hs with hd
    · unfold Rule.degenerateAt at hd
      split at hd
      · exact absurd hd Bool.false_ne_true
      · rename_i p hp
        rw [ofCell_of_place hp]
        split at hd
        · rename_i f hr
          exact ⟨.degenerate, by simp [hr, ofOutcome, hd]⟩
        · rename_i t hr
          exact ⟨.degenerate, by simpa [hr, ofOutcome] using hd⟩
    · obtain ⟨p, hp, hr⟩ := hs
      rw [ofCell_of_place hp, hr]
      exact ⟨_, rfl⟩

/-- An outcome gives no verdict exactly if it is a fault other than degenerate geometry. -/
lemma ofOutcome_eq_error_iff {o : Except (Fault α) α} {f : Fault α} :
    ofOutcome o = .error f ↔ o = .error f ∧ ¬ f.isDegenerate := by
  unfold ofOutcome
  rcases o with g | s
  · dsimp only
    split_ifs with hg
    · refine ⟨fun h => absurd h (by simp), fun ⟨h, hf⟩ => ?_⟩
      cases h
      exact absurd hg hf
    · refine ⟨fun h => ?_, fun ⟨h, _⟩ => ?_⟩
      · cases h
        exact ⟨rfl, hg⟩
      · cases h
        rfl
  · simp

/-- A contained rule has a verdict on each cell that stands for a position. -/
lemma exists_ofCell_of_contained (hrule : rule.Contained places)
    (hplace : ∃ v : Vec α, Grid.place decimals c = .ok v) :
    ∃ v, ofCell decimals rule places c = .ok v := by
  obtain ⟨p, hp⟩ := hplace
  rw [ofCell_of_place hp]
  rcases ho : ofOutcome (rule p places) with f | v
  · obtain ⟨hr, hf⟩ := ofOutcome_eq_error_iff.1 ho
    exact absurd (hrule p f hr) hf
  · exact ⟨v, rfl⟩

end Verdict

/-! ## The fault of an evaluation -/

namespace Candidates

variable {verdict : Cell → Except (Fault α) (Verdict α)} {before : List (Cell × Option α)}
  {e : Cell × Option α} {f : Fault α}

/-- An evaluation stops at the first cell without a verdict. It leaves the entries from there on as
they were. -/
lemma judge_of_error (hbefore : ∀ d ∈ before, ∃ v, verdict d.1 = .ok v)
    (he : verdict e.1 = .error f) (after : List (Cell × Option α)) :
    judge verdict (before ++ e :: after) =
      ((judge verdict before).1 ++ e :: after, (judge verdict before).2.1, some f) := by
  induction before with
  | nil =>
    rw [List.nil_append, judge]
    simp only [he, judge, List.nil_append]
  | cons d ds ih =>
    obtain ⟨⟨v, hv⟩, hds⟩ := List.forall_mem_cons.1 hbefore
    rw [List.cons_append, judge, judge]
    simp only [hv, ih hds, List.cons_append]

@[simp] lemma length_judge (es : List (Cell × Option α)) :
    (judge verdict es).1.length = es.length := by
  rw [← List.length_map Prod.fst, map_fst_judge, List.length_map]

/-- The fault of an evaluation is that of a cell, before which each has a verdict. -/
lemma exists_of_fault_judge {es : List (Cell × Option α)} (h : (judge verdict es).2.2 = some f) :
    ∃ before e after, es = before ++ e :: after ∧ (∀ d ∈ before, ∃ v, verdict d.1 = .ok v) ∧
      verdict e.1 = .error f := by
  induction es with
  | nil => simp [judge] at h
  | cons d ds ih =>
    unfold judge at h
    rcases hv : verdict d.1 with g | v
    · simp only [hv, Option.some.injEq] at h
      exact ⟨[], d, ds, rfl, by simp, by rw [hv, h]⟩
    · simp only [hv] at h
      obtain ⟨before, e, after, rfl, hbefore, he⟩ := ih h
      exact ⟨d :: before, e, after, rfl, List.forall_mem_cons.2 ⟨⟨v, hv⟩, hbefore⟩, he⟩

variable {decimals : ℤ} {rule : Rule α} {places : Places α} {m : Candidates α}

/-- The cells that are counted are those of degenerate geometry. -/
lemma degenerate_judge {es : List (Cell × Option α)}
    (h : ∀ e ∈ es, ∃ v, Verdict.ofCell decimals rule places e.1 = .ok v) :
    (judge (Verdict.ofCell decimals rule places) es).2.1 =
      (es.map Prod.fst).countP (rule.degenerateAt decimals places) := by
  induction es with
  | nil => rfl
  | cons e es ih =>
    obtain ⟨⟨v, hv⟩, hes⟩ := List.forall_mem_cons.1 h
    rw [List.map_cons, List.countP_cons, judge]
    simp only [hv, ih hes, ← (Verdict.ofCell_spec hv).1]
    split_ifs <;> rfl

/-- An evaluation that meets no fault counts the cells of degenerate geometry. -/
lemma degenerate_evaluate (h : (m.evaluate decimals rule places).fault = none) :
    (m.evaluate decimals rule places).degenerate =
      m.cells.countP (rule.degenerateAt decimals places) :=
  degenerate_judge (fault_judge.1 h)

/-- An evaluation in which the rule has a score for each cell keeps the cells, scores all of them
and counts those of degenerate geometry. -/
lemma evaluate_of_scored (h : ∀ c ∈ m.cells, ∃ s, rule.ScoresAt decimals places c s) :
    let e := m.evaluate decimals rule places
    e.fault = none ∧ e.candidates.cells = m.cells ∧
      (∀ d ∈ e.candidates.entries, ∃ s, d.2 = some s ∧ rule.ScoresAt decimals places d.1 s) ∧
      e.degenerate = m.cells.countP (rule.degenerateAt decimals places) := by
  intro e
  have hfault : e.fault = none := fault_judge.2 fun d hd =>
    Verdict.exists_ofCell_iff.2 (h d.1 (List.mem_map_of_mem hd))
  refine ⟨hfault, cells_evaluate _ _ _ _, fun d hd => ?_, degenerate_evaluate hfault⟩
  obtain ⟨v, hv, hs⟩ := evaluate_scored hfault d hd
  exact ⟨v.score, hs, (Verdict.ofCell_spec hv).2⟩

/-- An evaluation that is ended by the rule at place `i` keeps the cells, scores those before it,
leaves the other entries as they were, and counts the cells of degenerate geometry before it. -/
lemma evaluate_of_failsAt {i : ℕ} (h : rule.FailsAt decimals places m.cells i f) :
    let e := m.evaluate decimals rule places
    e.fault = some f ∧ e.candidates.cells = m.cells ∧
      (∀ d ∈ e.candidates.entries.take i,
        ∃ s, d.2 = some s ∧ rule.ScoresAt decimals places d.1 s) ∧
      e.candidates.entries.drop i = m.entries.drop i ∧
      e.degenerate = (m.cells.take i).countP (rule.degenerateAt decimals places) := by
  intro e
  obtain ⟨c, v, hc, hv, hr, hf⟩ := h.fails
  obtain ⟨d, hd, rfl⟩ : ∃ d, m.entries[i]? = some d ∧ d.1 = c := by
    unfold cells at hc
    rwa [List.getElem?_map, Option.map_eq_some_iff] at hc
  obtain ⟨hi, hd⟩ := List.getElem?_eq_some_iff.1 hd
  have hcells : (m.entries.take i).map Prod.fst = m.cells.take i := List.map_take
  have hbefore : ∀ d ∈ m.entries.take i, ∃ v, Verdict.ofCell decimals rule places d.1 = .ok v := by
    intro d hd
    have hmem : d.1 ∈ m.cells.take i := hcells ▸ List.mem_map_of_mem hd
    exact Verdict.exists_ofCell_iff.2 (h.scores d.1 hmem)
  have herror : Verdict.ofCell decimals rule places d.1 = .error f := by
    rw [Verdict.ofCell_of_place hv]
    exact Verdict.ofOutcome_eq_error_iff.2 ⟨hr, hf⟩
  -- the map is cut at the cell where the rule fails
  have hdrop : m.entries.drop i = d :: m.entries.drop (i + 1) := by
    rw [← hd, ← List.drop_eq_getElem_cons hi]
  have hjudge := judge_of_error hbefore herror (m.entries.drop (i + 1))
  rw [← hdrop, List.take_append_drop] at hjudge
  let scored := judge (Verdict.ofCell decimals rule places) (m.entries.take i)
  have hlength : scored.1.length = i := by
    rw [length_judge, List.length_take]
    omega
  have hentries : e.candidates.entries = scored.1 ++ m.entries.drop i := congrArg Prod.fst hjudge
  refine ⟨congrArg (·.2.2) hjudge, cells_evaluate _ _ _ _, ?_, ?_, ?_⟩
  · rw [hentries, List.take_left' hlength]
    intro d hd
    obtain ⟨v, hv, hs⟩ := judge_scored (fault_judge.2 hbefore) d hd
    exact ⟨v.score, hs, (Verdict.ofCell_spec hv).2⟩
  · rw [hentries, List.drop_left' hlength]
  · rw [← hcells, ← degenerate_judge hbefore]
    exact congrArg (·.2.1) hjudge

/-- If each cell stands for a position, then the fault of an evaluation is that of the rule at one
of the cells. -/
lemma exists_failsAt (hplace : ∀ c ∈ m.cells, ∃ v : Vec α, Grid.place decimals c = .ok v)
    (h : (m.evaluate decimals rule places).fault = some f) :
    ∃ i, rule.FailsAt decimals places m.cells i f := by
  obtain ⟨before, e, after, hm, hbefore, he⟩ := exists_of_fault_judge h
  have hcells : m.cells = before.map Prod.fst ++ e.1 :: after.map Prod.fst := by
    unfold cells
    rw [hm, List.map_append, List.map_cons]
  obtain ⟨v, hv⟩ := hplace e.1 (by simp [hcells])
  rw [Verdict.ofCell_of_place hv, Verdict.ofOutcome_eq_error_iff] at he
  refine ⟨before.length, ?_, e.1, v, ?_, hv, he⟩
  · rw [hcells, List.take_left' (List.length_map _)]
    intro c hc
    obtain ⟨d, hd, rfl⟩ := List.mem_map.1 hc
    exact Verdict.exists_ofCell_iff.1 (hbefore d hd)
  · rw [hcells]
    simp

end Candidates
end PointRelaxation
