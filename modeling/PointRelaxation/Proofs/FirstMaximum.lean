import PointRelaxation.Proofs.Settling

/-!
# The first maximum

The best of a candidate map is the earliest of its greatest scores. It can be found part by part,
and in any order up to ties.

* `Candidates.better_assoc`: it does not matter in which groups candidates are compared.
* `Candidates.bestOf_append`: the best of two parts is the better one of the best of each.
* `Candidates.bestOf_first`: the first entry that was never evaluated is the one that is named.
* `Candidates.same_of_perm`: in another order the candidate that is best scores the same.
* `Candidates.best_first_maximum`: what is chosen from a map, and when.
-/

namespace PointRelaxation.Candidates

variable {α : Type} [Scalar α]

/-! ## When nothing can be chosen -/

lemma bestOf_cons (e : Cell × Option α) (es : List (Cell × Option α)) :
    bestOf (e :: es) = (do
      let first ← evaluated e
      es.foldlM weigh first : Except (Fault α) (Cell × α)) := rfl

/-- Weighing stops at the first entry that was never evaluated. -/
lemma foldlM_weigh_first {before after : List (Cell × Option α)} {c : Cell}
    (h : ∀ e ∈ before, e.2 ≠ none) (b : Cell × α) :
    (before ++ (c, none) :: after).foldlM weigh b = .error (.unevaluated c) := by
  induction before generalizing b with
  | nil => rfl
  | cons e before ih =>
    obtain ⟨he, hbefore⟩ := List.forall_mem_cons.1 h
    obtain ⟨t, ht⟩ := Option.ne_none_iff_exists'.1 he
    have hweigh : weigh b e = .ok (better b (e.1, t)) :=
      bind_eq_ok.2 ⟨_, evaluated_of_eq_some ht, rfl⟩
    rw [List.cons_append, List.foldlM_cons, hweigh]
    exact ih hbefore _

/-- The entry that keeps anything from being chosen is the first one that was never evaluated. -/
lemma bestOf_first {before after : List (Cell × Option α)} {c : Cell}
    (h : ∀ e ∈ before, e.2 ≠ none) :
    bestOf (before ++ (c, none) :: after) = (.error (.unevaluated c) : Except (Fault α) _) := by
  cases before with
  | nil => rfl
  | cons e before =>
    obtain ⟨he, hbefore⟩ := List.forall_mem_cons.1 h
    obtain ⟨t, ht⟩ := Option.ne_none_iff_exists'.1 he
    rw [List.cons_append, bestOf_cons, evaluated_of_eq_some ht]
    exact foldlM_weigh_first hbefore _

omit [Scalar α] in
/-- Either every entry was evaluated, or there is a first one that was not. -/
lemma forall_evaluated_or_first (es : List (Cell × Option α)) :
    (∀ e ∈ es, ∃ t, e.2 = some t) ∨
      ∃ before c after, es = before ++ (c, none) :: after ∧ ∀ e ∈ before, e.2 ≠ none := by
  rcases hfind : es.find? (·.2.isNone) with _ | ⟨c, s⟩
  · refine .inl fun e he => Option.ne_none_iff_exists'.1 fun hnone => ?_
    exact List.find?_eq_none.1 hfind e he (Option.isNone_iff_eq_none.2 hnone)
  · obtain ⟨hnone, before, after, hes, hbefore⟩ := List.find?_eq_some_iff_append.1 hfind
    obtain rfl : s = none := Option.isNone_iff_eq_none.1 hnone
    exact .inr ⟨before, c, after, hes, fun e he hnone => by simpa [hnone] using hbefore e he⟩

lemma best_of_first {m : Candidates α} {before after : List (Cell × Option α)} {c : Cell}
    (hm : m.entries = before ++ (c, none) :: after) (h : ∀ e ∈ before, e.2 ≠ none) :
    m.best = .error (.unevaluated c) := by
  unfold best
  rw [hm]
  exact bestOf_first h

/-- Something is chosen only among entries, and only if all of them were evaluated. -/
lemma evaluated_of_best {m : Candidates α} {b : Cell × α} (h : m.best = .ok b) :
    m.entries ≠ [] ∧ ∀ e ∈ m.entries, ∃ t, e.2 = some t := by
  constructor
  · intro hempty
    cases (best_of_empty hempty).symm.trans h
  · rcases forall_evaluated_or_first m.entries with hall | ⟨before, c, after, hm, hbefore⟩
    · exact hall
    · cases (best_of_first hm hbefore).symm.trans h

/-! ## Choosing part by part -/

variable [OrderedScalar α]

/-- The better of two numbers is a number. -/
lemma number_better {a b : Cell × α} (ha : a.2 ≤ a.2) (hb : b.2 ≤ b.2) :
    (better a b).2 ≤ (better a b).2 := by
  rcases (better_spec ha hb).1 with h | h
  · rwa [h]
  · rwa [h]

/-- It does not matter in which groups candidates are compared. -/
lemma better_assoc {a b : Cell × α} (ha : a.2 ≤ a.2) (hb : b.2 ≤ b.2) (c : Cell × α) :
    better (better a b) c = better a (better b c) := by
  unfold better
  by_cases hba : b.2 ≤ a.2
  · by_cases hcb : c.2 ≤ b.2
    · have hca : c.2 ≤ a.2 := OrderedScalar.le_trans _ _ _ hcb hba
      simp only [if_pos hba, if_pos hcb, if_pos hca]
    · simp only [if_pos hba, if_neg hcb]
  · have hab := (OrderedScalar.le_total _ _ ha hb).resolve_right hba
    by_cases hcb : c.2 ≤ b.2
    · simp only [if_neg hba, if_pos hcb]
    · -- the first candidate scores less than the second, and that less than the third
      have hca : ¬ c.2 ≤ a.2 := fun hca => hcb (OrderedScalar.le_trans _ _ _ hca hab)
      simp only [if_neg hba, if_neg hcb, if_neg hca]

/-- A candidate that was found before can be weighed last. -/
lemma foldlM_weigh_better {es : List (Cell × Option α)} (hes : ∀ e ∈ es, ∀ t, e.2 = some t → t ≤ t)
    {a b : Cell × α} (ha : a.2 ≤ a.2) (hb : b.2 ≤ b.2) :
    es.foldlM weigh (better a b) = (do
      let r ← es.foldlM weigh b
      return better a r : Except (Fault α) (Cell × α)) := by
  induction es generalizing b with
  | nil => rfl
  | cons e es ih =>
    obtain ⟨he, hrest⟩ := List.forall_mem_cons.1 hes
    obtain ⟨c, _ | t⟩ := e
    · rfl
    · have ht : t ≤ t := he t rfl
      have hstep := ih hrest (number_better hb (b := (c, t)) ht)
      rw [← better_assoc ha hb] at hstep
      exact hstep

/-- A candidate that is chosen from numbers is a number. -/
lemma number_of_bestOf {es : List (Cell × Option α)} (hes : ∀ e ∈ es, ∀ t, e.2 = some t → t ≤ t)
    {b : Cell × α} (h : bestOf es = .ok b) : b.2 ≤ b.2 := by
  cases es with
  | nil => cases h
  | cons e es =>
    obtain ⟨he, hrest⟩ := List.forall_mem_cons.1 hes
    obtain ⟨first, hfirst, hfold⟩ := bind_eq_ok.1 h
    rw [evaluated_eq_ok] at hfirst
    have hnumber : first.2 ≤ first.2 := he first.2 (by rw [hfirst])
    obtain ⟨hmem, -, -⟩ := foldlM_weigh_spec hnumber hrest hfold
    rcases hmem with rfl | hmem
    · exact hnumber
    · exact hrest _ hmem _ rfl

/-- The best of two parts is the better one of the best of each, the one of the first part among
equals. What keeps one part from having a best candidate keeps the whole from having one. -/
lemma bestOf_append {before after : List (Cell × Option α)}
    (hnum : ∀ e ∈ before ++ after, ∀ t, e.2 = some t → t ≤ t) (hbefore : before ≠ [])
    (hafter : after ≠ []) :
    bestOf (before ++ after) = (do
      let a ← bestOf before
      let b ← bestOf after
      return better a b : Except (Fault α) (Cell × α)) := by
  obtain ⟨hfront, hback⟩ := List.forall_mem_append.1 hnum
  obtain ⟨e, es, rfl⟩ := List.exists_cons_of_ne_nil hbefore
  obtain ⟨d, ds, rfl⟩ := List.exists_cons_of_ne_nil hafter
  have hsplit : bestOf (e :: es ++ d :: ds) = (do
      let a ← bestOf (e :: es)
      (d :: ds).foldlM weigh a : Except (Fault α) (Cell × α)) := by
    rw [List.cons_append, bestOf_cons, bestOf_cons, bind_assoc]
    simp only [List.foldlM_append]
  rw [hsplit]
  rcases hbest : bestOf (e :: es) with f | a
  · rfl
  · -- the best of the first part is weighed against each entry behind it
    have ha := number_of_bestOf hfront hbest
    obtain ⟨hd, hds⟩ := List.forall_mem_cons.1 hback
    obtain ⟨c, _ | t⟩ := d
    · rfl
    · exact foldlM_weigh_better hds ha (b := (c, t)) (hd t rfl)

/-! ## Choosing in another order -/

omit [OrderedScalar α] in
/-- In another order the candidate that is best scores the same. It is the same one if no other
candidate scores as much. -/
lemma same_of_perm {m m' : Candidates α} (hperm : m'.entries.Perm m.entries) {a b : Cell × α}
    (ha : Leads m.entries a) (hb : Leads m'.entries b) (hnuma : a.2 ≤ a.2) (hnumb : b.2 ≤ b.2) :
    Scalar.Same b.2 a.2 ∧
      ((∀ c t, (c, some t) ∈ m.entries → a.2 ≤ t → c = a.1) → b = a) := by
  have hbm : (b.1, some b.2) ∈ m.entries := hperm.subset hb.mem
  obtain ⟨t, ht, hle⟩ := ha.le_top hnuma hbm
  obtain rfl := Option.some.inj ht
  obtain ⟨u, hu, hge⟩ := hb.le_top hnumb (hperm.symm.subset ha.mem)
  obtain rfl := Option.some.inj hu
  refine ⟨⟨hle, hge⟩, fun honly => ?_⟩
  have hcell : b.1 = a.1 := honly _ _ hbm hge
  exact Prod.ext hcell (score_unique (hcell ▸ hbm) ha.mem)

/-! ## What is chosen -/

/-- Among entries that were all evaluated, with numbers, the earliest of the best is chosen. -/
lemma leads_of_evaluated {m : Candidates α} (hnum : ∀ e ∈ m.entries, ∀ t, e.2 = some t → t ≤ t)
    (hne : m.entries ≠ []) (hall : ∀ e ∈ m.entries, ∃ t, e.2 = some t) :
    ∃ b, m.best = .ok b ∧ b.2 ≤ b.2 ∧ Leads m.entries b := by
  refine exists_leads hne fun e he => ?_
  obtain ⟨t, ht⟩ := hall e he
  exact ⟨t, ht, hnum e he t ht⟩

/-- A best candidate is chosen from a map of numbers exactly if it has entries and all of them were
evaluated. Otherwise it is said which entry comes first of those that were not, or that there are
none. The candidate that is chosen scores at least as much as every other, and more than every one
before it. Of two parts it is the better one of the best of each, the first among equals. And in
every other order the candidate that is chosen scores the same, and is the same one if no other
scores as much. -/
theorem best_first_maximum (m : Candidates α)
    (hnum : ∀ e ∈ m.entries, ∀ t, e.2 = some t → t ≤ t) :
    ((∃ b, m.best = .ok b) ↔ m.entries ≠ [] ∧ ∀ e ∈ m.entries, ∃ t, e.2 = some t) ∧
    (m.entries = [] → m.best = .error .noCandidates) ∧
    (m.entries ≠ [] → (¬ ∀ e ∈ m.entries, ∃ t, e.2 = some t) →
      ∃ before c after, m.entries = before ++ (c, none) :: after ∧ (∀ e ∈ before, e.2 ≠ none) ∧
        m.best = .error (.unevaluated c)) ∧
    (∀ k s, m.best = .ok (k, s) →
      (∀ e ∈ m.entries, ∃ t, e.2 = some t ∧ t ≤ s) ∧
      ∃ before after, m.entries = before ++ (k, some s) :: after ∧
        ∀ e ∈ before, ∃ t, e.2 = some t ∧ t ≤ s ∧ ¬ s ≤ t) ∧
    (∀ a b : Candidates α, m.entries = a.entries ++ b.entries →
      (a.entries = [] → m.best = b.best) ∧ (b.entries = [] → m.best = a.best) ∧
      (a.entries ≠ [] → b.entries ≠ [] → m.best = do
        let x ← a.best
        let y ← b.best
        return if y.2 ≤ x.2 then x else y)) ∧
    ∀ m' : Candidates α, m'.entries.Perm m.entries → ∀ x, m.best = .ok x →
      ∃ y, m'.best = .ok y ∧ Scalar.Same y.2 x.2 ∧
        ((∀ c t, (c, some t) ∈ m.entries → x.2 ≤ t → c = x.1) → y = x) := by
  refine ⟨⟨fun ⟨b, hb⟩ => evaluated_of_best hb, fun ⟨hne, hall⟩ => ?_⟩, best_of_empty,
    fun _ hsome => ?_, fun k s hbest => ?_, fun a b hm => ⟨fun ha => ?_, fun hb => ?_,
    fun ha hb => ?_⟩, fun m' hperm x hx => ?_⟩
  · obtain ⟨b, hb, -⟩ := leads_of_evaluated hnum hne hall
    exact ⟨b, hb⟩
  · obtain ⟨before, c, after, hm, hbefore⟩ :=
      (forall_evaluated_or_first m.entries).resolve_left hsome
    exact ⟨before, c, after, hm, hbefore, best_of_first hm hbefore⟩
  · obtain ⟨hne, hall⟩ := evaluated_of_best hbest
    obtain ⟨b, hb, hnumber, hlead⟩ := leads_of_evaluated hnum hne hall
    obtain rfl := Except.ok.inj (hb.symm.trans hbest)
    refine ⟨fun e he => hlead.le_top hnumber he, ?_⟩
    obtain ⟨before, after, hm, hbefore, -⟩ := hlead
    exact ⟨before, after, hm, hbefore⟩
  · unfold best
    rw [hm, ha, List.nil_append]
  · unfold best
    rw [hm, hb, List.append_nil]
  · unfold best
    rw [hm] at hnum ⊢
    exact bestOf_append hnum ha hb
  · obtain ⟨hne, hall⟩ := evaluated_of_best hx
    obtain ⟨b, hb, hnumber, hlead⟩ := leads_of_evaluated hnum hne hall
    obtain rfl := Except.ok.inj (hb.symm.trans hx)
    have hnum' : ∀ e ∈ m'.entries, ∀ t, e.2 = some t → t ≤ t :=
      fun e he => hnum e (hperm.subset he)
    have hne' : m'.entries ≠ [] := fun hempty => hne (by simpa [hempty] using hperm)
    obtain ⟨y, hy, hnumber', hlead'⟩ :=
      leads_of_evaluated hnum' hne' fun e he => hall e (hperm.subset he)
    exact ⟨y, hy, same_of_perm hperm hlead hlead' hnumber hnumber'⟩

/-- A tie between the two zeros, behind a smaller score and before the lowest: the earlier zero is
chosen, and in every other order a zero is. -/
theorem best_first_maximum_zeros :
    let m : Candidates Float := .ofEntries
      [(⟨3, 3⟩, some (-1.0)), (⟨1, 1⟩, some 0.0), (⟨2, 2⟩, some (-0.0)),
        (⟨0, 0⟩, some Scalar.lowest)]
    (∀ e ∈ m.entries, ∀ t, e.2 = some t → t ≤ t) ∧ m.best = .ok (⟨1, 1⟩, 0.0) ∧
      ∀ m' : Candidates Float, m'.entries.Perm m.entries →
        ∃ y, m'.best = .ok y ∧ Scalar.Same y.2 0.0 := by
  intro m
  have hnum : ∀ e ∈ m.entries, ∀ t, e.2 = some t → t ≤ t := by decide +kernel
  have hbest : m.best = .ok (⟨1, 1⟩, 0.0) := by decide +kernel
  obtain ⟨-, -, -, -, -, hperm⟩ := best_first_maximum m hnum
  refine ⟨hnum, hbest, fun m' hm' => ?_⟩
  obtain ⟨y, hy, hsame, -⟩ := hperm m' hm' _ hbest
  exact ⟨y, hy, hsame⟩

end PointRelaxation.Candidates
