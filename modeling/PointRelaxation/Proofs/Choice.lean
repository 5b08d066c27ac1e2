import Mathlib.Data.List.Nodup
import PointRelaxation.Candidates.Scoring
import PointRelaxation.Proofs.Order

/-!
# Evaluating a map and choosing from it

* `Candidates.evaluate_scored`: an evaluation that no fault ends leaves each cell with the score of
  the verdict on it, and the cells as they were.
* `Candidates.best_spec`: the candidate that is chosen is an entry of the map, and no entry exceeds
  it. This needs the scores to be numbers; evaluated scores are.
-/

namespace PointRelaxation

variable {α : Type} [Scalar α]

/-! ## Verdicts -/

/-- A recorded score is a number. -/
lemma Verdict.score_le_score [OrderedScalar α] {decimals : ℤ} {rule : Rule α} {places : Places α}
    {c : Cell} {v : Verdict α} (h : Verdict.ofCell decimals rule places c = .ok v) :
    v.score ≤ v.score := by
  unfold Verdict.ofCell at h
  obtain ⟨p, -, h⟩ := bind_eq_ok.1 h
  unfold Verdict.ofOutcome at h
  cases hr : rule p places with
  | error f =>
    rw [hr] at h
    by_cases hf : f.isDegenerate
    · simp only [hf, if_true, Except.ok.injEq] at h
      exact h ▸ OrderedScalar.lowest_le_lowest
    · simp [hf] at h
  | ok s =>
    rw [hr] at h
    by_cases hs : Scalar.IsUndefined s
    · simp only [hs, if_true, Except.ok.injEq] at h
      exact h ▸ OrderedScalar.lowest_le_lowest
    · simp only [hs, if_false, Except.ok.injEq] at h
      exact h ▸ not_not.1 hs

namespace Candidates

/-! ## Looking up -/

omit [Scalar α] in
lemma eq_of_mem_of_fst_eq {m : Candidates α} {e e' : Cell × Option α} (he : e ∈ m.entries)
    (he' : e' ∈ m.entries) (h : e.1 = e'.1) : e = e' :=
  List.inj_on_of_nodup_map m.nodup he he' h

omit [Scalar α] in
lemma score?_eq_some_iff {m : Candidates α} {c : Cell} {s : α} :
    m.score? c = some s ↔ (c, some s) ∈ m.entries := by
  unfold score? get?
  constructor
  · intro h
    rw [Option.join_eq_some_iff, Option.map_eq_some_iff] at h
    obtain ⟨e, he, hs⟩ := h
    have hc : e.1 = c := by simpa using List.find?_some he
    rw [← hc, ← hs]
    exact List.mem_of_find?_eq_some he
  · intro h
    have hfind : m.entries.find? (fun e => e.1 == c) = some (c, some s) := by
      rcases hf : m.entries.find? (fun e => e.1 == c) with _ | e
      · rw [List.find?_eq_none] at hf
        exact absurd (beq_self_eq_true c) (hf _ h)
      · -- the entry that is found is the given one, since no other has its cell
        have hc : e.1 = c := by simpa using List.find?_some hf
        exact hf.trans (congrArg some (eq_of_mem_of_fst_eq (List.mem_of_find?_eq_some hf) h hc))
    rw [hfind]
    rfl

/-! ## Evaluating -/

lemma judge_scored {verdict : Cell → Except (Fault α) (Verdict α)}
    {es : List (Cell × Option α)} (h : (judge verdict es).2.2 = none) :
    ∀ e ∈ (judge verdict es).1, ∃ v, verdict e.1 = .ok v ∧ e.2 = some v.score := by
  induction es with
  | nil => simp [judge]
  | cons e es ih =>
    unfold judge at h ⊢
    cases hv : verdict e.1 with
    | error f => simp [hv] at h
    | ok v =>
      simp only [hv] at h ⊢
      intro d hd
      rcases List.mem_cons.1 hd with rfl | hd
      · exact ⟨v, hv, rfl⟩
      · exact ih h d hd

/-- An evaluation goes through if every cell has a verdict, and only then. -/
lemma fault_judge {verdict : Cell → Except (Fault α) (Verdict α)} {es : List (Cell × Option α)} :
    (judge verdict es).2.2 = none ↔ ∀ e ∈ es, ∃ v, verdict e.1 = .ok v := by
  induction es with
  | nil => simp [judge]
  | cons e es ih =>
    unfold judge
    rcases hv : verdict e.1 with f | v
    · simp [hv]
    · simp [hv, ih]

/-- An evaluation that no fault ends scores every cell. -/
lemma evaluate_scored {decimals : ℤ} {rule : Rule α} {places : Places α} {m : Candidates α}
    (h : (m.evaluate decimals rule places).fault = none) :
    ∀ e ∈ (m.evaluate decimals rule places).candidates.entries,
      ∃ v, Verdict.ofCell decimals rule places e.1 = .ok v ∧ e.2 = some v.score :=
  judge_scored h

/-- The scores of verdicts are numbers. -/
lemma le_self_of_scored [OrderedScalar α] {decimals : ℤ} {rule : Rule α} {places : Places α}
    {es : List (Cell × Option α)}
    (h : ∀ e ∈ es, ∃ v, Verdict.ofCell decimals rule places e.1 = .ok v ∧ e.2 = some v.score) :
    ∀ e ∈ es, ∀ t, e.2 = some t → t ≤ t := by
  intro e he t ht
  obtain ⟨v, hv, hs⟩ := h e he
  rw [hs, Option.some.injEq] at ht
  exact ht ▸ Verdict.score_le_score hv

@[simp] lemma cells_evaluate (decimals : ℤ) (rule : Rule α) (places : Places α)
    (m : Candidates α) : (m.evaluate decimals rule places).candidates.cells = m.cells :=
  map_fst_judge _ _

/-! ## Choosing -/

omit [Scalar α] in
lemma evaluated_eq_ok {e : Cell × Option α} {b : Cell × α} :
    evaluated e = .ok b ↔ e = (b.1, some b.2) := by
  obtain ⟨c, s⟩ := e
  obtain ⟨d, t⟩ := b
  cases s with
  | none => simp [evaluated]
  | some s => simp [evaluated]

/-- The better of two numbers is one of them, and neither exceeds it. -/
lemma better_spec [OrderedScalar α] {b n : Cell × α} (hb : b.2 ≤ b.2) (hn : n.2 ≤ n.2) :
    (better b n = b ∨ better b n = n) ∧ b.2 ≤ (better b n).2 ∧ n.2 ≤ (better b n).2 := by
  unfold better
  by_cases h : n.2 ≤ b.2
  · rw [if_pos h]
    exact ⟨.inl rfl, hb, h⟩
  · rw [if_neg h]
    exact ⟨.inr rfl, (OrderedScalar.le_total _ _ hb hn).resolve_right h, hn⟩

lemma foldlM_weigh_spec [OrderedScalar α] {es : List (Cell × Option α)} {b r : Cell × α}
    (hb : b.2 ≤ b.2) (hes : ∀ e ∈ es, ∀ t, e.2 = some t → t ≤ t)
    (h : es.foldlM weigh b = .ok r) :
    (r = b ∨ (r.1, some r.2) ∈ es) ∧ b.2 ≤ r.2 ∧ ∀ e ∈ es, ∃ t, e.2 = some t ∧ t ≤ r.2 := by
  -- on the entries still to be weighed, for any best candidate so far
  induction es generalizing b with
  | nil =>
    obtain rfl : b = r := by simpa [pure, Except.pure] using h
    exact ⟨.inl rfl, hb, by simp⟩
  | cons e es ih =>
    rw [List.foldlM_cons] at h
    obtain ⟨b', hw, h⟩ := bind_eq_ok.1 h
    obtain ⟨n, he, hbetter⟩ := bind_eq_ok.1 hw
    rw [evaluated_eq_ok] at he
    obtain rfl : better b n = b' := by simpa [pure, Except.pure] using hbetter
    have hn : n.2 ≤ n.2 := hes e List.mem_cons_self n.2 (by rw [he])
    obtain ⟨hmem, hle, hnle⟩ := better_spec hb hn
    have hself : (better b n).2 ≤ (better b n).2 := by
      rcases hmem with hm | hm <;> rwa [hm]
    obtain ⟨hr, hbr, hall⟩ := ih hself (fun d hd => hes d (List.mem_cons_of_mem e hd)) h
    refine ⟨?_, OrderedScalar.le_trans _ _ _ hle hbr, ?_⟩
    · rcases hr with rfl | hr
      · rcases hmem with hm | hm
        · exact .inl hm
        · exact .inr (by rw [hm, he]; exact List.mem_cons_self)
      · exact .inr (List.mem_cons_of_mem e hr)
    · intro d hd
      rcases List.mem_cons.1 hd with rfl | hd
      · exact ⟨n.2, by rw [he], OrderedScalar.le_trans _ _ _ hnle hbr⟩
      · exact hall d hd

/-- The chosen candidate is an entry, and every entry is evaluated and at most as good. -/
lemma best_spec [OrderedScalar α] {m : Candidates α}
    (hnum : ∀ e ∈ m.entries, ∀ t, e.2 = some t → t ≤ t) {c : Cell} {s : α}
    (h : m.best = .ok (c, s)) :
    m.score? c = some s ∧ ∀ e ∈ m.entries, ∃ t, e.2 = some t ∧ t ≤ s := by
  rw [score?_eq_some_iff]
  unfold best bestOf at h
  cases hm : m.entries with
  | nil => simp [hm] at h
  | cons e es =>
    simp only [hm] at h
    obtain ⟨b, he, h⟩ := bind_eq_ok.1 h
    rw [evaluated_eq_ok] at he
    rw [hm] at hnum
    have hb : b.2 ≤ b.2 := hnum e List.mem_cons_self b.2 (by rw [he])
    obtain ⟨hr, hle, hall⟩ :=
      foldlM_weigh_spec hb (fun d hd => hnum d (List.mem_cons_of_mem e hd)) h
    refine ⟨?_, List.forall_mem_cons.2 ⟨⟨b.2, by rw [he], hle⟩, hall⟩⟩
    rcases hr with rfl | hr
    · rw [he]
      exact List.mem_cons_self
    · exact List.mem_cons_of_mem e hr

omit [Scalar α] in
lemma evaluated_of_eq_some {e : Cell × Option α} {s : α} (h : e.2 = some s) :
    evaluated e = .ok (e.1, s) := by
  rw [evaluated_eq_ok, ← h]

lemma exists_foldlM_weigh {es : List (Cell × Option α)} (h : ∀ e ∈ es, ∃ s, e.2 = some s)
    (b : Cell × α) : ∃ r, es.foldlM weigh b = .ok r := by
  induction es generalizing b with
  | nil => exact ⟨b, rfl⟩
  | cons e es ih =>
    obtain ⟨⟨s, hs⟩, hes⟩ := List.forall_mem_cons.1 h
    obtain ⟨r, hr⟩ := ih hes (better b (e.1, s))
    have hweigh : weigh b e = .ok (better b (e.1, s)) :=
      bind_eq_ok.2 ⟨_, evaluated_of_eq_some hs, rfl⟩
    exact ⟨r, by rw [List.foldlM_cons]; exact bind_eq_ok.2 ⟨_, hweigh, hr⟩⟩

/-- Among evaluated entries one can be chosen. -/
lemma exists_best {m : Candidates α} (hne : m.entries ≠ [])
    (hall : ∀ e ∈ m.entries, ∃ s, e.2 = some s) : ∃ b, m.best = .ok b := by
  obtain ⟨e, es, hm⟩ := List.exists_cons_of_ne_nil hne
  rw [hm] at hall
  obtain ⟨⟨s, hs⟩, hes⟩ := List.forall_mem_cons.1 hall
  obtain ⟨r, hr⟩ := exists_foldlM_weigh hes (e.1, s)
  refine ⟨r, ?_⟩
  unfold best bestOf
  rw [hm]
  exact bind_eq_ok.2 ⟨_, evaluated_of_eq_some hs, hr⟩

end Candidates
end PointRelaxation
