import Mathlib.Logic.Relation
import PointRelaxation.Proofs.Report

/-!
# The ascent of a point

A point whose rule looks at nothing but the trial position, and whose own cell is proposed at each
visit, climbs: it moves only to where the rule is worth strictly more, so that it never comes back.
The clouds of two passes share nothing. What links them is that the score which the point brings
along is the value of its rule at its own cell, where it is scored again. This needs the position
that a point is sent to to be its own rounding, as it is in exact arithmetic.

* `Stage`, `Lands`: a pass that proposes the own cell of a point, and one that leaves the point at a
  rounded position.
* `Stage.ascends`: what such a pass does to the point.
* `strict_ascent`: what becomes of the point from its first visit on.
* `descent_beyond_grid`: a point that is sent to a position that is not its own rounding.
-/

namespace PointRelaxation

variable {α : Type} [Scalar α]

/-! ## Rules of the position alone -/

namespace Rule

variable {decimals : ℤ} {rule : Rule α} {places places' : Places α} {c c' : Cell} {s t : α}

/-- A rule whose value depends on the trial position only. -/
def Independent (rule : Rule α) : Prop :=
  ∀ v places places', rule v places = rule v places'

lemma Independent.degenerateAt (h : rule.Independent) (places places' : Places α) :
    rule.degenerateAt decimals places c = rule.degenerateAt decimals places' c := by
  unfold Rule.degenerateAt
  rcases Grid.place (α := α) decimals c with f | v
  · rfl
  · simp only [h v places places']

/-- Such a rule scores a cell alike wherever the points stand. -/
lemma Independent.scoresAt (h : rule.Independent) (hs : rule.ScoresAt decimals places c s) :
    rule.ScoresAt decimals places' c s := by
  unfold ScoresAt at hs ⊢
  rw [← h.degenerateAt places places']
  split_ifs at hs ⊢ with hd
  · exact hs
  · obtain ⟨v, hv, hr⟩ := hs
    exact ⟨v, hv, (h v places' places).trans hr⟩

/-- A cell has one score. -/
lemma ScoresAt.unique (hs : rule.ScoresAt decimals places c s)
    (ht : rule.ScoresAt decimals places c t) : s = t := by
  unfold ScoresAt at hs ht
  split_ifs at hs ht with hd
  · exact hs.trans ht.symm
  · obtain ⟨v, hv, hr⟩ := hs
    obtain ⟨v', hv', hr'⟩ := ht
    obtain rfl := Except.ok.inj (hv.symm.trans hv')
    exact Except.ok.inj (hr.symm.trans hr')

/-- Cells of one place have one score. -/
lemma ScoresAt.of_place (hplace : Grid.place (α := α) decimals c = Grid.place decimals c')
    (hs : rule.ScoresAt decimals places c s) : rule.ScoresAt decimals places c' s := by
  unfold ScoresAt degenerateAt at hs ⊢
  rwa [← hplace]

/-- The score of a cell is a number. -/
lemma ScoresAt.le_self [OrderedScalar α] (hs : rule.ScoresAt decimals places c s) : s ≤ s := by
  obtain ⟨v, hv⟩ := Verdict.exists_ofCell_iff.2 ⟨s, hs⟩
  rw [hs.unique (Verdict.ofCell_spec hv).2]
  exact Verdict.score_le_score hv

end Rule

/-- The score of a point is that of its rule at the cell in which the point stands, wherever the
other points are. -/
def Point.UpToDate (decimals : ℕ) (p : Point α) : Prop :=
  ∃ c, p.cell decimals = .ok c ∧ ∀ places, p.rule.ScoresAt decimals places c p.score

/-- Such a score is a number. -/
lemma Point.UpToDate.le_self [OrderedScalar α] {decimals : ℕ} {p : Point α}
    (h : p.UpToDate decimals) : p.score ≤ p.score := by
  obtain ⟨c, -, hscore⟩ := h
  exact (hscore fun name => .error (.unknownPoint name)).le_self

/-! ## Visits -/

namespace Outcome

variable {decimals : ℕ} {places : Places α} {p q : Point α} {moved : Bool} {c : Cell} {s : α}

/-- The candidates of a visited point have the scores that its rule gives them. -/
lemma scoresAt (h : Outcome decimals places p q moved) (hc : (c, some s) ∈ q.candidates.entries) :
    q.rule.ScoresAt decimals places c s := by
  obtain ⟨v, hv, hs⟩ := h.scored _ hc
  rw [Option.some.inj hs]
  exact (Verdict.ofCell_spec hv).2

/-- A candidate of a visited point has a score. -/
lemma exists_score (h : Outcome decimals places p q moved) (hc : c ∈ q.candidates.cells) :
    ∃ s, (c, some s) ∈ q.candidates.entries ∧ s ≤ q.score := by
  obtain ⟨⟨c, _⟩, he, rfl⟩ := List.mem_map.1 hc
  obtain ⟨s, rfl, hle⟩ := h.greatest _ he
  exact ⟨s, he, hle⟩

/-- A visited point has the score of the cell in which it stands, if its position is its own
rounding in case it moved. -/
lemma upToDate (h : Outcome decimals places p q moved) (hrule : q.rule.Independent)
    (hlands : moved = true → Grid.round decimals q.position = .ok q.position) :
    q.UpToDate decimals := by
  cases hq : q.stable with
  | true =>
    obtain ⟨c, hcell, hscore⟩ := (h.stays hq).2.2
    have hs := h.scoresAt (Candidates.score?_eq_some_iff.1 hscore)
    exact ⟨c, hcell, fun _ => hrule.scoresAt hs⟩
  | false =>
    obtain ⟨hmoved, c, hplace, hscore⟩ := h.moves hq
    have hs := h.scoresAt (Candidates.score?_eq_some_iff.1 hscore)
    -- the cell in which the point ends up need not be the chosen one, but has the same place
    obtain ⟨c', hcell, hplace'⟩ := bind_eq_ok.1 (hlands hmoved)
    exact ⟨c', hcell, fun _ => hrule.scoresAt (hs.of_place (hplace.trans hplace'.symm))⟩

end Outcome

namespace Visit

/-- A point that is moved has left a cell that is worth less, if that was a candidate at all. -/
lemma not_le_of_moved_ofCloud {view : View α} {scene : Scene α} {p : Point α} {m : Candidates α}
    (h : (ofCloud view scene p m).fault? = none)
    (hmoved : (ofCloud view scene p m).moved = true) {here : Cell} {t : α}
    (hhere : p.cell scene.decimals = .ok here)
    (ht : (here, some t) ∈ (ofCloud view scene p m).point.candidates.entries) :
    ¬ (ofCloud view scene p m).point.score ≤ t := by
  obtain ⟨-, hsettle⟩ := ofCloud_of_fault?_eq_none h
  obtain ⟨here', c, s, hhere', -, hcase⟩ := Point.settle_eq_ok hsettle
  obtain rfl : here = here' := Except.ok.inj (hhere.symm.trans hhere')
  rcases hcase with ⟨-, -, -, -, hstays⟩ | ⟨hbeats, position, -, hq, -⟩
  · exact absurd (hmoved.symm.trans hstays) Bool.noConfusion
  · rw [hq] at ht ⊢
    exact hbeats t (Candidates.score?_eq_some_iff.2 ht)

variable {σ : Type} [Draws σ α]

lemma not_le_of_moved {options : Options α} {view : View α} {scene : Scene α} {p : Point α} {s : σ}
    (h : (make options view scene p s).1.fault? = none)
    (hmoved : (make options view scene p s).1.moved = true) {here : Cell} {t : α}
    (hhere : p.cell scene.decimals = .ok here)
    (ht : (here, some t) ∈ (make options view scene p s).1.point.candidates.entries) :
    ¬ (make options view scene p s).1.point.score ≤ t := by
  rcases make_eq options view scene p s with ⟨f, hf⟩ | ⟨m, hm⟩
  · rw [hf] at h
    exact absurd h (Option.some_ne_none f)
  · rw [hm] at h hmoved ht ⊢
    exact not_le_of_moved_ofCloud h hmoved hhere ht

end Visit

/-! ## Passes -/

/-- A completed pass of some relaxation. If it visits the point of a name, then the cell in which
the point stands is among the candidates. -/
structure Stage (name : String) (scene : Scene α) (report : PassReport) (scene' : Scene α) :
    Prop where
  completed : ∃ (σ : Type) (_ : Draws σ α) (r : Relaxation α σ),
    (r.pass scene).report = .ok report ∧ (r.pass scene).scene = scene'
  proposes : name ∈ report.evaluated → ∀ p ∈ scene.find? name, ∀ q ∈ scene'.find? name,
    ∀ c, p.cell scene.decimals = .ok c → c ∈ q.candidates.cells

/-- If a pass moves the point of a name, then it leaves the point at a position that is its own
rounding. -/
def Lands (name : String) (report : PassReport) (scene : Scene α) : Prop :=
  name ∈ report.moved →
    ∀ q ∈ scene.find? name, Grid.round scene.decimals q.position = .ok q.position

/-- What a completed pass makes of the point `p` of a scene: `q`, which is `p` if the point is not
visited. -/
structure Climbs (decimals : ℕ) (report : PassReport) (p q : Point α) : Prop where
  rule : q.rule = p.rule
  keeps : p.name ∉ report.evaluated → q = p
  position : p.name ∉ report.moved → q.position = p.position
  upToDate : p.name ∈ report.evaluated →
    (p.name ∈ report.moved → Grid.round decimals q.position = .ok q.position) →
      q.UpToDate decimals
  score_le : p.UpToDate decimals → p.score ≤ q.score
  score_lt : p.UpToDate decimals → p.name ∈ report.moved → ¬ q.score ≤ p.score

namespace Relaxation

variable {σ : Type} [Draws σ α] {r : Relaxation α σ} {scene : Scene α} {report : PassReport}

/-- A point that a completed pass evaluates stands behind it as some visit to it left it. -/
lemma exists_make_of_evaluated (hr : (r.pass scene).report = .ok report) {p : Point α}
    (hp : p ∈ scene.points) (hvisit : p.name ∈ report.evaluated) :
    ∃ (scene' : Scene α) (s : σ),
      let v := (Visit.make r.options (r.pass scene).view scene' p s).1
      scene'.decimals = scene.decimals ∧ v.fault? = none ∧
        (r.pass scene).scene.find? p.name = some v.point := by
  rcases report_cases hr with ⟨-, rfl⟩ | ⟨-, hreport⟩
  · exact absurd hvisit List.not_mem_nil
  · rw [hreport] at hvisit
    obtain ⟨v, hv, hname⟩ := List.mem_map.1 hvisit
    have hcompleted := fault?_of_mem_visits_pass hr hv
    have hfind := find?_of_mem_visits_pass hv
    obtain ⟨scene', p', s, hp', rfl, hd⟩ := exists_of_mem_visits_pass hv
    rw [Visit.point_name_make] at hname
    obtain rfl := Scene.eq_of_name_eq (List.mem_of_mem_filter hp') hp hname
    rw [Visit.point_name_make] at hfind
    exact ⟨scene', s, hd, hcompleted, hfind⟩

end Relaxation

/-- A point that is not visited does not climb. -/
lemma Climbs.of_not_evaluated [OrderedScalar α] {decimals : ℕ} {report : PassReport} {p : Point α}
    (hnew : p.name ∉ report.evaluated) (hmoved : p.name ∉ report.moved) :
    Climbs decimals report p p where
  rule := rfl
  keeps _ := rfl
  position _ := rfl
  upToDate h := absurd h hnew
  score_le := Point.UpToDate.le_self
  score_lt _ h := absurd h hmoved

namespace Stage

variable {name : String} {scene scene' : Scene α} {report : PassReport} {p : Point α}

lemma decimals_eq (h : Stage name scene report scene') : scene'.decimals = scene.decimals := by
  obtain ⟨σ, _, r, -, rfl⟩ := h.completed
  exact Relaxation.decimals_pass

/-- A pass that proposes the cell in which a point stands makes the point climb. -/
lemma climbs [OrderedScalar α] (h : Stage name scene report scene')
    (hp : scene.find? name = some p) (hrule : p.rule.Independent) :
    ∃ q, scene'.find? name = some q ∧ Climbs scene.decimals report p q := by
  obtain ⟨σ, _, r, hr, rfl⟩ := h.completed
  obtain ⟨hmem, rfl⟩ := Scene.find?_eq_some_iff.1 hp
  by_cases hvisit : p.name ∈ report.evaluated
  · obtain ⟨scene', s, hd, hcompleted, hq⟩ := Relaxation.exists_make_of_evaluated hr hmem hvisit
    let v := (Visit.make r.options (r.pass scene).view scene' p s).1
    have houtcome : Outcome scene'.decimals _ p v.point v.moved := Visit.outcome_make hcompleted
    have hmoved : p.name ∈ report.moved ↔ v.moved = true := by
      rw [Relaxation.mem_moved_iff hr hq, houtcome.moved_eq, Bool.not_eq_true']
    -- the score that the point brought along is the one its cell is given again
    have hbase : ∀ c, p.cell scene.decimals = .ok c →
        (∀ places, p.rule.ScoresAt scene.decimals places c p.score) →
        (c, some p.score) ∈ v.point.candidates.entries ∧ p.score ≤ v.point.score := by
      intro c hcell hscore
      obtain ⟨t, ht, hle⟩ := houtcome.exists_score (h.proposes hvisit p hp _ hq c hcell)
      have hagain := houtcome.scoresAt ht
      rw [houtcome.rule, hd] at hagain
      obtain rfl := hagain.unique (hscore _)
      exact ⟨ht, hle⟩
    refine ⟨v.point, hq, ?_⟩
    exact {
      rule := houtcome.rule
      keeps := fun hnew => absurd hvisit hnew
      position := fun hstays => Visit.position_make (Bool.eq_false_iff.2 (hmoved.not.1 hstays))
      upToDate := fun _ hlands => hd ▸
        houtcome.upToDate (houtcome.rule ▸ hrule) fun hm => hd ▸ hlands (hmoved.2 hm)
      score_le := fun ⟨c, hcell, hscore⟩ => (hbase c hcell hscore).2
      score_lt := fun ⟨c, hcell, hscore⟩ hm => Visit.not_le_of_moved hcompleted (hmoved.1 hm)
        (hd ▸ hcell) (hbase c hcell hscore).1 }
  · exact ⟨p, Relaxation.find?_pass_of_not_evaluated hr hmem hvisit, .of_not_evaluated hvisit
      fun hm => hvisit (Relaxation.moved_subset_evaluated hr hm)⟩

/-- Where each position that stands for a cell lies in it, every pass lands. -/
lemma lands [OrderedScalar α] (h : Stage name scene report scene')
    (hround : ∀ c, Grid.RoundTrips α scene.decimals c) : Lands name report scene' := by
  obtain ⟨σ, _, r, hr, rfl⟩ := h.completed
  intro hmoved q hq
  have hvisit := Relaxation.moved_subset_evaluated hr hmoved
  obtain ⟨p, hp, rfl⟩ := List.mem_map.1 (Relaxation.evaluated_subset_names hr name hvisit)
  obtain ⟨scene', s, hd, hcompleted, hv⟩ := Relaxation.exists_make_of_evaluated hr hp hvisit
  obtain rfl := Option.some.inj (hv.symm.trans hq)
  obtain ⟨-, c, hplace, -⟩ :=
    (Visit.outcome_make hcompleted).moves ((Relaxation.mem_moved_iff hr hq).1 hmoved)
  rw [hd] at hplace
  rw [Relaxation.decimals_pass]
  exact bind_eq_ok.2 ⟨c, hround c _ hplace, hplace⟩

/-- A completed pass that proposes the cell in which a point stands. -/
lemma of_pass {σ : Type} [Draws σ α] {r : Relaxation α σ}
    (hr : (r.pass scene).report = .ok report)
    (h : ∀ p ∈ scene.find? name, ∀ q ∈ (r.pass scene).scene.find? name,
      ∀ c ∈ (p.cell scene.decimals).toOption, c ∈ q.candidates.cells) :
    Stage name scene report (r.pass scene).scene where
  completed := ⟨σ, _, r, hr, rfl⟩
  proposes _ p hp q hq c hc := h p hp q hq c (by rw [hc]; rfl)

end Stage

/-! ## Runs of passes -/

/-- A later state of a point: it has the score of its cell, no lower than before, and strictly above
if the point stands elsewhere. -/
structure Point.Above (decimals : ℕ) (p q : Point α) : Prop where
  rule : q.rule = p.rule
  upToDate : q.UpToDate decimals
  score_le : p.score ≤ q.score
  position : q.position = p.position ∨ ¬ q.score ≤ p.score

namespace Point.Above

variable [OrderedScalar α] {decimals : ℕ} {p q r : Point α}

lemma refl (h : p.UpToDate decimals) : p.Above decimals p where
  rule := rfl
  upToDate := h
  score_le := h.le_self
  position := .inl rfl

lemma trans (h : p.Above decimals q) (h' : q.Above decimals r) : p.Above decimals r where
  rule := h'.rule.trans h.rule
  upToDate := h'.upToDate
  score_le := OrderedScalar.le_trans _ _ _ h.score_le h'.score_le
  position := by
    rcases h'.position with hstay | hlt
    · rcases h.position with hstay' | hlt'
      · exact .inl (hstay.trans hstay')
      · exact .inr fun hle => hlt' (OrderedScalar.le_trans _ _ _ h'.score_le hle)
    · exact .inr fun hle => hlt (OrderedScalar.le_trans _ _ _ hle h.score_le)

/-- A point that has left a cell does not stand in it again. -/
lemma cell_ne (h : p.Above decimals q) (h' : q.Above decimals r) (hp : p.UpToDate decimals)
    (hleft : q.cell decimals ≠ p.cell decimals) : r.cell decimals ≠ p.cell decimals := by
  intro hback
  have hlt : ¬ q.score ≤ p.score :=
    h.position.resolve_left fun hstay => hleft (congrArg (Grid.cell decimals) hstay)
  -- back in the old cell the point would have the old score
  obtain ⟨c, hcell, hscore⟩ := hp
  obtain ⟨c', hcell', hscore'⟩ := h'.upToDate
  obtain rfl : c = c' := Except.ok.inj (hcell.symm.trans (hback.symm.trans hcell'))
  rw [(h.trans h').rule] at hscore'
  have hsame := (hscore' fun name => .error (.unknownPoint name)).unique (hscore _)
  exact hlt (hsame ▸ h'.score_le)

end Point.Above

/-- A pass that makes a point climb and leaves it at a rounded position leaves it above. -/
lemma Climbs.above [OrderedScalar α] {decimals : ℕ} {report : PassReport} {p q : Point α}
    (h : Climbs decimals report p q) (hp : p.UpToDate decimals)
    (hlands : p.name ∈ report.moved → Grid.round decimals q.position = .ok q.position) :
    p.Above decimals q where
  rule := h.rule
  upToDate := by
    by_cases hvisit : p.name ∈ report.evaluated
    · exact h.upToDate hvisit hlands
    · rwa [h.keeps hvisit]
  score_le := h.score_le hp
  position := by
    by_cases hmoved : p.name ∈ report.moved
    · exact .inr (h.score_lt hp hmoved)
    · exact .inl (h.position hmoved)

/-- Completed passes in a row, each of which proposes the cell in which the point of a name stands,
and leaves the point at a rounded position if it moves it. -/
def Course (name : String) : Scene α → Scene α → Prop :=
  Relation.ReflTransGen fun scene scene' =>
    ∃ report, Stage name scene report scene' ∧ Lands name report scene'

/-- Along a course a point stays above where it began. -/
lemma Course.above [OrderedScalar α] {name : String} {scene scene' : Scene α} {p : Point α}
    (h : Course name scene scene') (hp : scene.find? name = some p) (hrule : p.rule.Independent)
    (hup : p.UpToDate scene.decimals) :
    scene'.decimals = scene.decimals ∧
      ∃ q, scene'.find? name = some q ∧ p.Above scene.decimals q := by
  induction h with
  | refl => exact ⟨rfl, p, hp, .refl hup⟩
  | @tail scene₁ scene₂ _ hlast ih =>
    obtain ⟨hd, q, hq, habove⟩ := ih
    obtain ⟨report, hstage, hlands⟩ := hlast
    obtain ⟨q', hq', hclimbs⟩ := hstage.climbs hq (habove.rule ▸ hrule)
    have hd' : scene₂.decimals = scene.decimals := hstage.decimals_eq.trans hd
    obtain ⟨-, rfl⟩ := Scene.find?_eq_some_iff.1 hq
    rw [hd] at hclimbs
    refine ⟨hd', q', hq', habove.trans (hclimbs.above habove.upToDate fun hmoved => ?_)⟩
    rw [← hd']
    exact hlands hmoved q' hq'

/-- From the end of its first visit on, a point whose rule depends on the trial position only
climbs, whatever the other points do, as long as each visit proposes the cell in which the point
stands and each position to which the point moves is its own rounding. Its score is always that of
its rule at its own cell. No pass lowers the score, and a pass that moves the point raises it. A
cell that the point has left it does not stand in again. -/
theorem strict_ascent [OrderedScalar α] {name : String} {scene₀ scene₁ scene₂ : Scene α}
    {report : PassReport} {p₀ : Point α} (hp₀ : scene₀.find? name = some p₀)
    (hrule : p₀.rule.Independent) (hfirst : Stage name scene₀ report scene₁)
    (hvisit : name ∈ report.evaluated) (hlands : Lands name report scene₁)
    (hcourse : Course name scene₁ scene₂) :
    ∃ p, scene₂.find? name = some p ∧ p.rule = p₀.rule ∧ p.UpToDate scene₂.decimals ∧
      (∀ report' scene₃, Stage name scene₂ report' scene₃ → ∃ q, scene₃.find? name = some q ∧
        p.score ≤ q.score ∧ (name ∈ report'.moved → ¬ q.score ≤ p.score) ∧
        (name ∉ report'.moved → q.position = p.position)) ∧
      ∀ scene₃ scene₄, Course name scene₂ scene₃ → Course name scene₃ scene₄ →
        ∃ q₃ q₄, scene₃.find? name = some q₃ ∧ scene₄.find? name = some q₄ ∧
          (q₃.cell scene₂.decimals ≠ p.cell scene₂.decimals →
            q₄.cell scene₂.decimals ≠ p.cell scene₂.decimals) := by
  obtain ⟨p₁, hp₁, hclimbs⟩ := hfirst.climbs hp₀ hrule
  have hup : p₁.UpToDate scene₁.decimals := by
    obtain ⟨-, rfl⟩ := Scene.find?_eq_some_iff.1 hp₀
    rw [hfirst.decimals_eq]
    exact hclimbs.upToDate hvisit fun hmoved => hfirst.decimals_eq ▸ hlands hmoved p₁ hp₁
  obtain ⟨hd, p, hp, habove⟩ := hcourse.above hp₁ (hclimbs.rule ▸ hrule) hup
  have hrule' : p.rule = p₀.rule := habove.rule.trans hclimbs.rule
  have hindependent : p.rule.Independent := hrule' ▸ hrule
  rw [← hd] at habove
  refine ⟨p, hp, hrule', habove.upToDate, ?_, ?_⟩
  · intro report' scene₃ hstage
    obtain ⟨q, hq, hclimbs'⟩ := hstage.climbs hp hindependent
    obtain ⟨-, rfl⟩ := Scene.find?_eq_some_iff.1 hp
    exact ⟨q, hq, hclimbs'.score_le habove.upToDate, hclimbs'.score_lt habove.upToDate,
      hclimbs'.position⟩
  · intro scene₃ scene₄ h₃ h₄
    obtain ⟨hd₃, q₃, hq₃, habove₃⟩ := h₃.above hp hindependent habove.upToDate
    obtain ⟨-, q₄, hq₄, habove₄⟩ := h₄.above hq₃ (habove₃.rule ▸ hindependent)
      (hd₃ ▸ habove₃.upToDate)
    exact ⟨q₃, q₄, hq₃, hq₄, habove₃.cell_ne (hd₃ ▸ habove₄) habove.upToDate⟩

namespace Exact

/-- A point two cells away from the origin, to which it goes. -/
def approach : Scene Exact :=
  { solitude with
    points := [.unvisited "A" toOrigin ⟨-2.0, 0.0⟩]
    nodup := List.nodup_singleton _ }

/-- The first pass of the approach. -/
def approachPass : Pass Exact (Script Exact) :=
  (Relaxation.start pursuitOptions pursuitDraws).pass approach

/-- The second pass of the approach. -/
def approachPass' : Pass Exact (Script Exact) :=
  approachPass.relaxation.pass approachPass.scene

lemma stage_approachPass :
    Stage "A" approach ⟨0, false, ["A"], ["A"], ["A"], []⟩ approachPass.scene := by
  refine .of_pass (eq_ok_of_toOption ?_) ?_
  all_goals
    simp only [Relaxation.pass, Relaxation.sweepDue, Visit.make_eq_listed]
    decide +kernel

lemma stage_approachPass' :
    Stage "A" approachPass.scene ⟨1, false, ["A"], ["A"], ["A"], []⟩ approachPass'.scene := by
  unfold approachPass' approachPass
  refine .of_pass (eq_ok_of_toOption ?_) ?_
  all_goals
    simp only [Relaxation.pass, Relaxation.sweepDue, Visit.make_eq_listed]
    decide +kernel

end Exact

/-- In the second pass of the approach the point has climbed from where the first one left it. -/
theorem strict_ascent_approach :
    ∃ p q, Exact.approachPass.scene.find? "A" = some p ∧
      Exact.approachPass'.scene.find? "A" = some q ∧ p.UpToDate 0 ∧ p.score ≤ q.score ∧
      ¬ q.score ≤ p.score := by
  have hlands := Exact.stage_approachPass.lands (Grid.roundTrips_exact 0)
  have hfound : Exact.approach.find? "A" = some (.unvisited "A" Exact.toOrigin ⟨-2.0, 0.0⟩) := rfl
  obtain ⟨p, hp, -, hup, hnext, -⟩ := strict_ascent hfound (fun _ _ _ => rfl)
    Exact.stage_approachPass List.mem_cons_self hlands .refl
  obtain ⟨q, hq, hle, hlt, -⟩ := hnext _ _ Exact.stage_approachPass'
  have hdecimals : Exact.approachPass.scene.decimals = 0 := Relaxation.decimals_pass
  exact ⟨p, q, hp, hq, hdecimals ▸ hup, hle, hlt List.mem_cons_self⟩

/-! ## Beyond the grid -/

/-- Floating point numbers with a single direction, along the first axis. The sines and cosines of
floating point numbers are given by the machine and cannot be unfolded; those of the angle zero are
all that a run along the axis needs. -/
def Axial : Type := Float

namespace Axial

instance : Inhabited Axial := inferInstanceAs (Inhabited Float)

instance : Scalar Axial :=
  { (inferInstance : Scalar Float) with
    sin := fun _ => (0.0 : Float)
    cos := fun _ => (1.0 : Float) }

instance : OrderedScalar Axial where
  le_total := OrderedScalar.le_total (α := Float)
  le_trans := OrderedScalar.le_trans (α := Float)
  lowest_le_lowest := OrderedScalar.lowest_le_lowest (α := Float)

/-- A coordinate that is no whole number of hundredths. -/
def summit : Axial := (70368744177664.265625 : Float)

/-- A point near the summit, to which it goes. -/
def ridge : Scene Axial where
  decimals := 2
  points := [.unvisited "A" (fun v _ => .ok (-Scalar.abs (v.x - summit)))
    ⟨(70368744177664.0 : Float), (0.0 : Float)⟩]
  lines := []
  segments := []
  polygons := []
  measures := []
  nodup := List.nodup_singleton _

def ridgeOptions : Options Axial where
  samples := 2
  radius := (1.0 : Float)
  seed := none
  snapshot := false
  skipStable := false
  maxPasses := 5
  samples_pos := Nat.zero_lt_two

/-- Draws that propose the cell of a point and one a quarter of a unit to the east. -/
def ridgeDraws : Script Axial :=
  .ofList [(0.0 : Float), (0.0 : Float), (0.0 : Float), (0.5 : Float)]

def ridgePass : Pass Axial (Script Axial) :=
  (Relaxation.start ridgeOptions ridgeDraws).pass ridge

def ridgePass' : Pass Axial (Script Axial) :=
  ridgePass.relaxation.pass ridgePass.scene

lemma stage_ridgePass :
    Stage "A" ridge ⟨0, false, ["A"], ["A"], ["A"], []⟩ ridgePass.scene := by
  refine .of_pass (eq_ok_of_toOption ?_) ?_
  all_goals
    simp only [Relaxation.pass, Relaxation.sweepDue, Visit.make_eq_listed]
    decide +kernel

lemma stage_ridgePass' :
    Stage "A" ridgePass.scene ⟨1, false, ["A"], [], [], []⟩ ridgePass'.scene := by
  unfold ridgePass' ridgePass
  refine .of_pass (eq_ok_of_toOption ?_) ?_
  all_goals
    simp only [Relaxation.pass, Relaxation.sweepDue, Visit.make_eq_listed]
    decide +kernel

/-- The first pass sends the point to the summit, but its place lies in another cell, the score of
which the second pass gives the point. -/
lemma exists_descent : ∃ p ∈ ridgePass.scene.find? "A", ∃ q ∈ ridgePass'.scene.find? "A",
    ¬ p.score ≤ q.score := by
  unfold ridgePass' ridgePass
  simp only [Relaxation.pass, Relaxation.sweepDue, Visit.make_eq_listed]
  decide +kernel

end Axial

/-- A point that a pass moves to a position that is not its own rounding, and that the next pass
finds worth less there. -/
theorem descent_beyond_grid :
    ¬ ∀ (name : String) (scene₀ scene₁ scene₂ : Scene Axial) (report report' : PassReport),
      (∀ p ∈ scene₀.find? name, p.rule.Independent) →
      Stage name scene₀ report scene₁ → name ∈ report.evaluated →
      Stage name scene₁ report' scene₂ →
        ∀ p ∈ scene₁.find? name, ∀ q ∈ scene₂.find? name, p.score ≤ q.score := by
  intro h
  obtain ⟨p, hp, q, hq, hdescent⟩ := Axial.exists_descent
  have hrule : ∀ p ∈ Axial.ridge.find? "A", p.rule.Independent := by
    intro p hp
    obtain rfl := List.mem_singleton.1 (Scene.find?_eq_some_iff.1 hp).1
    exact fun _ _ _ => rfl
  exact hdescent (h "A" _ _ _ _ _ hrule Axial.stage_ridgePass List.mem_cons_self
    Axial.stage_ridgePass' p hp q hq)

end PointRelaxation
