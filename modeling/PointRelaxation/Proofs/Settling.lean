import PointRelaxation.Proofs.Exact
import PointRelaxation.Proofs.Visit

/-!
# Settling a point

A point is settled from the scores of its candidates alone. The best candidate is the earliest one
of the greatest score. If the point's own cell has that score too, the point stays there, even if
another cell had it before; otherwise it is marked unstable and moves to the best candidate, which
is then another cell than its own.

* `Candidates.Leads`: the earliest of the best entries.
* `Point.settle_exact`: what settling does to a point, for every candidate map.
* `Point.settle_beyond_grid`: a point that is sent to another cell need not get there.
-/

namespace PointRelaxation

variable {α : Type} [Scalar α]

namespace Candidates

/-! ## The best candidate -/

/-- The earliest of the best entries: those before it score less, and those behind it no more. -/
def Leads (es : List (Cell × Option α)) (b : Cell × α) : Prop :=
  ∃ before after, es = before ++ (b.1, some b.2) :: after ∧
    (∀ e ∈ before, ∃ t, e.2 = some t ∧ t ≤ b.2 ∧ ¬ b.2 ≤ t) ∧
      ∀ e ∈ after, ∃ t, e.2 = some t ∧ t ≤ b.2

namespace Leads

variable {es : List (Cell × Option α)} {b : Cell × α} {e : Cell × Option α} {c d : Cell} {t u : α}

lemma mem (h : Leads es b) : (b.1, some b.2) ∈ es := by
  obtain ⟨before, after, rfl, -, -⟩ := h
  exact List.mem_append_right _ List.mem_cons_self

/-- No entry scores more. -/
lemma le_top (h : Leads es b) (hb : b.2 ≤ b.2) (he : e ∈ es) : ∃ t, e.2 = some t ∧ t ≤ b.2 := by
  obtain ⟨before, after, rfl, hbefore, hafter⟩ := h
  rcases List.mem_append.1 he with he | he
  · obtain ⟨t, ht, hle, -⟩ := hbefore e he
    exact ⟨t, ht, hle⟩
  · rcases List.mem_cons.1 he with rfl | he
    · exact ⟨b.2, rfl, hb⟩
    · exact hafter e he

/-- An entry that scores less can stand before. -/
lemma cons_below (h : Leads es b) (hle : t ≤ b.2) (hlt : ¬ b.2 ≤ t) :
    Leads ((c, some t) :: es) b := by
  obtain ⟨before, after, rfl, hbefore, hafter⟩ := h
  exact ⟨(c, some t) :: before, after, rfl,
    List.forall_mem_cons.2 ⟨⟨t, rfl, hle, hlt⟩, hbefore⟩, hafter⟩

/-- Behind one entry another one can stand that scores no more. -/
lemma insert [OrderedScalar α] (h : Leads ((d, some u) :: es) b) (htu : t ≤ u) :
    Leads ((d, some u) :: (c, some t) :: es) b := by
  obtain ⟨before, after, hes, hbefore, hafter⟩ := h
  cases before with
  | nil =>
    obtain ⟨hfirst, rfl⟩ := List.cons_eq_cons.1 hes
    obtain ⟨rfl, hu⟩ := Prod.mk.inj hfirst
    obtain rfl := Option.some.inj hu
    exact ⟨[], (c, some t) :: es, rfl, hbefore, List.forall_mem_cons.2 ⟨⟨t, rfl, htu⟩, hafter⟩⟩
  | cons e before =>
    obtain ⟨rfl, rfl⟩ := List.cons_eq_cons.1 hes
    obtain ⟨⟨u', hu', hle, hlt⟩, hrest⟩ := List.forall_mem_cons.1 hbefore
    obtain rfl := Option.some.inj hu'
    refine ⟨(d, some u) :: (c, some t) :: before, after, rfl, ?_, hafter⟩
    refine List.forall_mem_cons.2 ⟨⟨u, rfl, hle, hlt⟩, ?_⟩
    refine List.forall_mem_cons.2 ⟨⟨t, rfl, ?_, ?_⟩, hrest⟩
    · exact OrderedScalar.le_trans _ _ _ htu hle
    · exact fun hbt => hlt (OrderedScalar.le_trans _ _ _ hbt htu)

end Leads

/-- Weighing entries that have been evaluated against the best one so far ends at the earliest of
the best. -/
lemma leads_foldlM [OrderedScalar α] {es : List (Cell × Option α)}
    (hes : ∀ e ∈ es, ∃ t, e.2 = some t ∧ t ≤ t) {b : Cell × α} (hb : b.2 ≤ b.2) :
    ∃ r, es.foldlM weigh b = .ok r ∧ r.2 ≤ r.2 ∧ Leads ((b.1, some b.2) :: es) r := by
  -- on the entries still to be weighed, for any best candidate so far
  induction es generalizing b with
  | nil => exact ⟨b, rfl, hb, [], [], rfl, by simp, by simp⟩
  | cons e es ih =>
    obtain ⟨⟨t, ht, hself⟩, hrest⟩ := List.forall_mem_cons.1 hes
    have hweigh : weigh b e = .ok (better b (e.1, t)) :=
      bind_eq_ok.2 ⟨_, evaluated_of_eq_some ht, rfl⟩
    obtain ⟨c, s⟩ := e
    obtain rfl : s = some t := ht
    unfold better at hweigh
    by_cases hle : t ≤ b.2
    · rw [if_pos hle] at hweigh
      obtain ⟨r, hr, hnumber, hleads⟩ := ih hrest hb
      exact ⟨r, by rw [List.foldlM_cons]; exact bind_eq_ok.2 ⟨_, hweigh, hr⟩, hnumber,
        hleads.insert hle⟩
    · rw [if_neg hle] at hweigh
      obtain ⟨r, hr, hnumber, hleads⟩ := ih hrest (b := (c, t)) hself
      refine ⟨r, by rw [List.foldlM_cons]; exact bind_eq_ok.2 ⟨_, hweigh, hr⟩, hnumber, ?_⟩
      -- the candidate that is given up scores less than the one that ends up best
      have hbt := (OrderedScalar.le_total _ _ hb hself).resolve_right hle
      obtain ⟨t', ht', htop⟩ := hleads.le_top hnumber List.mem_cons_self
      obtain rfl := Option.some.inj ht'
      exact hleads.cons_below (OrderedScalar.le_trans _ _ _ hbt htop)
        fun hrb => hle (OrderedScalar.le_trans _ _ _ htop hrb)

/-- Among evaluated entries the earliest of the best is chosen. -/
lemma exists_leads [OrderedScalar α] {m : Candidates α} (hne : m.entries ≠ [])
    (hnum : ∀ e ∈ m.entries, ∃ t, e.2 = some t ∧ t ≤ t) :
    ∃ b, m.best = .ok b ∧ b.2 ≤ b.2 ∧ Leads m.entries b := by
  obtain ⟨e, es, hm⟩ := List.exists_cons_of_ne_nil hne
  rw [hm] at hnum ⊢
  obtain ⟨⟨t, ht, hself⟩, hrest⟩ := List.forall_mem_cons.1 hnum
  obtain ⟨c, s⟩ := e
  obtain rfl : s = some t := ht
  obtain ⟨r, hr, hnumber, hleads⟩ := leads_foldlM hrest (b := (c, t)) hself
  refine ⟨r, ?_, hnumber, hleads⟩
  unfold best bestOf
  rw [hm]
  exact hr

omit [Scalar α] in
/-- An entry that was never evaluated is not one that has a score. -/
lemma exists_unevaluated_tail {c : Cell} {t : α} {es : List (Cell × Option α)}
    (h : ∃ e ∈ (c, some t) :: es, e.2 = none) : ∃ e ∈ es, e.2 = none := by
  obtain ⟨e, he, hnone⟩ := h
  rcases List.mem_cons.1 he with rfl | he
  · cases hnone
  · exact ⟨e, he, hnone⟩

/-- An entry that was never evaluated stops the weighing. -/
lemma foldlM_weigh_unevaluated {es : List (Cell × Option α)} (h : ∃ e ∈ es, e.2 = none)
    (b : Cell × α) : ∃ c, (c, none) ∈ es ∧ es.foldlM weigh b = .error (.unevaluated c) := by
  induction es generalizing b with
  | nil =>
    obtain ⟨e, he, -⟩ := h
    cases he
  | cons e es ih =>
    obtain ⟨c, _ | t⟩ := e
    · exact ⟨c, List.mem_cons_self, rfl⟩
    · obtain ⟨d, hd, herror⟩ := ih (exists_unevaluated_tail h) (better b (c, t))
      exact ⟨d, List.mem_cons_of_mem _ hd, herror⟩

lemma best_of_empty {m : Candidates α} (h : m.entries = []) :
    m.best = .error (.noCandidates : Fault α) := by
  unfold best bestOf
  rw [h]

/-- There is no best one among entries of which one was never evaluated. -/
lemma best_of_unevaluated {m : Candidates α} (h : ∃ e ∈ m.entries, e.2 = none) :
    ∃ c, (c, none) ∈ m.entries ∧ m.best = .error (.unevaluated c) := by
  unfold best bestOf
  rcases hm : m.entries with _ | ⟨⟨c, _ | t⟩, es⟩
  · rw [hm] at h
    obtain ⟨e, he, -⟩ := h
    cases he
  · exact ⟨c, List.mem_cons_self, rfl⟩
  · rw [hm] at h
    obtain ⟨d, hd, herror⟩ := foldlM_weigh_unevaluated (exists_unevaluated_tail h) (c, t)
    exact ⟨d, List.mem_cons_of_mem _ hd, herror⟩

/-- The candidate that is chosen is the earliest of the best. -/
lemma leads_of_best [OrderedScalar α] {m : Candidates α}
    (hnum : ∀ e ∈ m.entries, ∃ t, e.2 = some t ∧ t ≤ t) {b : Cell × α} (h : m.best = .ok b) :
    b.2 ≤ b.2 ∧ Leads m.entries b := by
  have hne : m.entries ≠ [] := fun hempty => nomatch (best_of_empty hempty).symm.trans h
  obtain ⟨b', hb', hspec⟩ := exists_leads hne hnum
  obtain rfl := Except.ok.inj (hb'.symm.trans h)
  exact hspec

/-- An evaluation that no fault ends leaves a number at every cell. -/
lemma number_of_evaluate [OrderedScalar α] {decimals : ℤ} {rule : Rule α} {places : Places α}
    {m : Candidates α} (h : (m.evaluate decimals rule places).fault = none) :
    ∀ e ∈ (m.evaluate decimals rule places).candidates.entries, ∃ t, e.2 = some t ∧ t ≤ t := by
  intro e he
  obtain ⟨v, hv, hs⟩ := evaluate_scored h e he
  exact ⟨v.score, hs, Verdict.score_le_score hv⟩

/-- A cell of the map has the greatest score. -/
def Ties (m : Candidates α) (c : Cell) (top : α) : Prop :=
  ∃ t, (c, some t) ∈ m.entries ∧ Scalar.Same t top

/-- A cell is not in the map or scores less than the best one. -/
def Trails (m : Candidates α) (c : Cell) (top : α) : Prop :=
  c ∉ m.cells ∨ ∃ t, (c, some t) ∈ m.entries ∧ t ≤ top ∧ ¬ top ≤ t

omit [Scalar α] in
/-- A cell has one score. -/
lemma score_unique {m : Candidates α} {c : Cell} {t u : α} (ht : (c, some t) ∈ m.entries)
    (hu : (c, some u) ∈ m.entries) : t = u :=
  Option.some.inj (Prod.mk.inj (eq_of_mem_of_fst_eq ht hu rfl)).2

/-- A cell has the greatest score exactly if it does not trail. -/
lemma trails_iff [OrderedScalar α] {m : Candidates α} {b : Cell × α} (hleads : Leads m.entries b)
    (hb : b.2 ≤ b.2) (c : Cell) : m.Trails c b.2 ↔ ¬ m.Ties c b.2 := by
  constructor
  · rintro (hnew | ⟨t, ht, -, hlt⟩) ⟨t', ht', -, htop⟩
    · exact hnew (List.mem_map_of_mem ht')
    · obtain rfl := score_unique ht ht'
      exact hlt htop
  · intro hties
    by_cases hc : c ∈ m.cells
    · obtain ⟨⟨c', s⟩, he, rfl⟩ := List.mem_map.1 hc
      obtain ⟨t, ht, hle⟩ := hleads.le_top hb he
      obtain rfl : s = some t := ht
      exact .inr ⟨t, he, hle, fun htop => hties ⟨t, he, hle, htop⟩⟩
    · exact .inl hc

end Candidates

namespace Point

/-! ## The point -/

/-- What becomes of a point that stands in the cell `here` and whose best candidate is `best`, of
score `top`. -/
structure Settles (decimals : ℕ) (p : Point α) (here best : Cell) (top : α) (q : Point α)
    (result : Except (Fault α) Bool) : Prop where
  /-- Nothing else is written. -/
  writes : ∃ position score stable, q = { p with position, score, stable }
  stays_iff : result = .ok false ↔ p.candidates.Ties here top
  stays : result = .ok false → q.position = p.position ∧ Scalar.Same q.score top ∧ q.stable = true
  unstable_iff : q.stable = false ↔ p.candidates.Trails here top
  leaves : q.stable = false → best ≠ here
  moves_iff : result = .ok true ↔
    p.candidates.Trails here top ∧ ∃ position : Vec α, Grid.place decimals best = .ok position
  moves : result = .ok true → Grid.place decimals best = .ok q.position ∧ q.score = top
  arrives : result = .ok true → Grid.RoundTrips α decimals best → q.cell decimals = .ok best
  fails_iff : ∀ f, result = .error f ↔
    p.candidates.Trails here top ∧ Grid.place decimals best = .error f
  fails : ∀ f, result = .error f → q = { p with stable := false }

lemma settle_of_error {decimals : ℕ} {p : Point α} {here : Cell} {f : Fault α}
    (hhere : p.cell decimals = .ok here) (hbest : p.candidates.best = .error f) :
    p.settle decimals = (p, .error f) := by
  unfold settle
  simp only [hhere, hbest]

/-- A point whose own cell has the greatest score stays. -/
lemma settle_of_ties {decimals : ℕ} {p : Point α} {here best : Cell} {top t : α}
    (hhere : p.cell decimals = .ok here) (hbest : p.candidates.best = .ok (best, top))
    (ht : (here, some t) ∈ p.candidates.entries) (htop : top ≤ t) :
    p.settle decimals = ({ p with stable := true, score := t }, .ok false) := by
  unfold settle
  simp only [hhere, hbest, Candidates.score?_eq_some_iff.2 ht, if_pos htop]

/-- Any other point is sent to the best candidate. -/
lemma settle_of_trails {decimals : ℕ} {p : Point α} {here best : Cell} {top : α}
    (hhere : p.cell decimals = .ok here) (hbest : p.candidates.best = .ok (best, top))
    (htrails : p.candidates.Trails here top) :
    p.settle decimals = settle.move decimals p best top := by
  unfold settle
  simp only [hhere, hbest]
  rcases hcurrent : p.candidates.score? here with _ | t
  · rfl
  · rw [Candidates.score?_eq_some_iff] at hcurrent
    have hlt : ¬ top ≤ t := by
      rcases htrails with hnew | ⟨t', ht', -, hlt⟩
      · exact absurd (List.mem_map_of_mem hcurrent) hnew
      · rwa [Candidates.score_unique hcurrent ht']
    exact if_neg hlt

/-- A point that stays settles. -/
lemma Settles.of_stays {decimals : ℕ} {p : Point α} {here best : Cell} {top t : α}
    (hties : p.candidates.Ties here top) (htrails : ¬ p.candidates.Trails here top)
    (ht : Scalar.Same t top) :
    Settles decimals p here best top { p with stable := true, score := t } (.ok false) where
  writes := ⟨_, _, _, rfl⟩
  stays_iff := iff_of_true rfl hties
  stays _ := ⟨rfl, ht, rfl⟩
  unstable_iff := iff_of_false (fun h => nomatch h) htrails
  leaves h := nomatch h
  moves_iff := iff_of_false (fun h => nomatch h) fun h => htrails h.1
  moves h := nomatch h
  arrives h := nomatch h
  fails_iff _ := iff_of_false (fun h => nomatch h) fun h => htrails h.1
  fails _ h := nomatch h

/-- So does one that is sent to another cell, whether or not there is a place for it. -/
lemma Settles.of_move {decimals : ℕ} {p : Point α} {here best : Cell} {top : α}
    (hties : ¬ p.candidates.Ties here top) (htrails : p.candidates.Trails here top)
    (hleaves : best ≠ here) :
    Settles decimals p here best top (settle.move decimals p best top).1
      (settle.move decimals p best top).2 := by
  unfold settle.move
  rcases hplace : Grid.place (α := α) decimals best with f | position
  · exact {
      writes := ⟨_, _, _, rfl⟩
      stays_iff := iff_of_false (fun h => nomatch h) hties
      stays := fun h => nomatch h
      unstable_iff := iff_of_true rfl htrails
      leaves := fun _ => hleaves
      moves_iff := iff_of_false (fun h => nomatch h) fun ⟨_, _, h⟩ => nomatch h.symm.trans hplace
      moves := fun h => nomatch h
      arrives := fun h => nomatch h
      fails_iff := fun g => ⟨fun h => ⟨htrails, hplace.trans (congrArg _ (Except.error.inj h))⟩,
        fun h => congrArg _ (Except.error.inj (hplace.symm.trans h.2))⟩
      fails := fun _ _ => rfl }
  · exact {
      writes := ⟨_, _, _, rfl⟩
      stays_iff := iff_of_false (fun h => nomatch h) hties
      stays := fun h => nomatch h
      unstable_iff := iff_of_true rfl htrails
      leaves := fun _ => hleaves
      moves_iff := iff_of_true rfl ⟨htrails, position, hplace⟩
      moves := fun _ => ⟨hplace, rfl⟩
      arrives := fun _ hround => hround position hplace
      fails_iff := fun _ => iff_of_false (fun h => nomatch h) fun h => nomatch h.2.symm.trans hplace
      fails := fun _ h => nomatch h }

/-- Settling is exact. Without a candidate, or with one that was never evaluated, it fails and
leaves the point as it is. Otherwise the scores of the candidates decide. -/
theorem settle_exact [OrderedScalar α] {decimals : ℕ} {p : Point α} {here : Cell}
    (hhere : p.cell decimals = .ok here) :
    (p.candidates.entries = [] → p.settle decimals = (p, .error .noCandidates)) ∧
    ((∃ e ∈ p.candidates.entries, e.2 = none) →
      ∃ c, (c, none) ∈ p.candidates.entries ∧ p.settle decimals = (p, .error (.unevaluated c))) ∧
    (p.candidates.entries ≠ [] → (∀ e ∈ p.candidates.entries, ∃ t, e.2 = some t ∧ t ≤ t) →
      ∃ best top, Candidates.Leads p.candidates.entries (best, top) ∧
        Settles decimals p here best top (p.settle decimals).1 (p.settle decimals).2) := by
  refine ⟨fun hempty => ?_, fun hnone => ?_, fun hne hnum => ?_⟩
  · exact settle_of_error hhere (Candidates.best_of_empty hempty)
  · obtain ⟨c, hc, hbest⟩ := Candidates.best_of_unevaluated hnone
    exact ⟨c, hc, settle_of_error hhere hbest⟩
  · obtain ⟨⟨best, top⟩, hbest, htop, hleads⟩ := Candidates.exists_leads hne hnum
    refine ⟨best, top, hleads, ?_⟩
    have htrails := Candidates.trails_iff hleads htop here
    by_cases hties : p.candidates.Ties here top
    · have hstays : ¬ p.candidates.Trails here top := fun h => htrails.1 h hties
      obtain ⟨t, ht, hsame⟩ := id hties
      rw [settle_of_ties hhere hbest ht hsame.2]
      exact .of_stays hties hstays hsame
    · rw [settle_of_trails hhere hbest (htrails.2 hties)]
      refine .of_move hties (htrails.2 hties) ?_
      -- the best candidate has the greatest score, which the own cell has not
      rintro rfl
      exact hties ⟨top, hleads.mem, htop, htop⟩

/-- A point on the first axis, with candidates that are scored there. -/
def onAxis (x : Float) (scores : List (ℤ × Float)) : Point Float :=
  { name := "A"
    rule := fun _ _ => .ok 0.0
    position := ⟨x, 0.0⟩
    score := Scalar.lowest
    candidates := .ofEntries (scores.map fun e => (⟨e.1, 0⟩, some e.2))
    stable := true
    degenerate := 0 }

/-- A point whose own cell scores less than two others, which score the same. -/
theorem settle_earlier_best :
    (onAxis 0.0 [(0, 0.5), (1, 1.0), (2, 1.0)]).cell 2 = .ok ⟨0, 0⟩ ∧
    ∃ best top, Candidates.Leads
      [(⟨0, 0⟩, some 0.5), (⟨1, 0⟩, some (1.0 : Float)), (⟨2, 0⟩, some 1.0)] (best, top) ∧
      Settles 2 (onAxis 0.0 [(0, 0.5), (1, 1.0), (2, 1.0)]) ⟨0, 0⟩ best top
        ((onAxis 0.0 [(0, 0.5), (1, 1.0), (2, 1.0)]).settle 2).1
        ((onAxis 0.0 [(0, 0.5), (1, 1.0), (2, 1.0)]).settle 2).2 := by
  have hhere : (onAxis 0.0 [(0, 0.5), (1, 1.0), (2, 1.0)]).cell 2 = .ok ⟨0, 0⟩ :=
    eq_ok_of_toOption (by decide +kernel)
  exact ⟨hhere, (settle_exact hhere).2.2 (by decide) (by decide +kernel)⟩

/-- There are cells that no place stands for, and cells whose place lies in another one. -/
theorem settle_beyond_grid :
    (¬ ∀ (decimals : ℕ) (p : Point Float) (here : Cell), p.cell decimals = .ok here →
      p.candidates.entries ≠ [] → (∀ e ∈ p.candidates.entries, ∃ t, e.2 = some t ∧ t ≤ t) →
        here ∉ p.candidates.cells → (p.settle decimals).2 = .ok true) ∧
    ¬ ∀ (decimals : ℕ) (p : Point Float) (here : Cell), p.cell decimals = .ok here →
      p.candidates.entries ≠ [] → (∀ e ∈ p.candidates.entries, ∃ t, e.2 = some t ∧ t ≤ t) →
        (p.settle decimals).2 = .ok true → (p.settle decimals).1.cell decimals ≠ .ok here := by
  constructor
  · intro h
    have hmoved := h 0 (onAxis 0.0 [(10 ^ 320, 1.0)]) ⟨0, 0⟩ (eq_ok_of_toOption (by decide +kernel))
      (by decide) (by decide +kernel) (by decide +kernel)
    have hnone : ((onAxis 0.0 [(10 ^ 320, 1.0)]).settle 0).2.toOption = none := by decide +kernel
    rw [hmoved] at hnone
    cases hnone
  · intro h
    exact h 0 (onAxis 9007199254740992.0 [(9007199254740993, 1.0), (9007199254740992, 0.0)])
      ⟨9007199254740992, 0⟩ (eq_ok_of_toOption (by decide +kernel)) (by decide) (by decide +kernel)
      (eq_ok_of_toOption (by decide +kernel)) (eq_ok_of_toOption (by decide +kernel))

end Point
end PointRelaxation
