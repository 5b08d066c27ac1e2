import Mathlib.Data.List.Forall2
import PointRelaxation.Fault

/-!
# Computations that can fail

When a computation in parts has a result, and which.

* `forM_eq_ok_iff`, `mapM_eq_ok_iff`: a list of checks, and a list of computations.
-/

namespace PointRelaxation

variable {ε β γ : Type}

/-- A computation fails exactly if it has no result. -/
lemma exists_error_iff {x : Except ε β} :
    (∃ f, x = .error f) ↔ ¬ ∃ b, x = .ok b := by
  cases x with
  | error f => simp
  | ok b => simp

lemma bind_unit_eq_ok {x : Except ε Unit} {f : Unit → Except ε γ} {c : γ} :
    x >>= f = .ok c ↔ x = .ok () ∧ f () = .ok c := by
  rw [bind_eq_ok]
  exact ⟨fun ⟨_, hx, hf⟩ => ⟨hx, hf⟩, fun ⟨hx, hf⟩ => ⟨(), hx, hf⟩⟩

/-- A check of each item succeeds if it does for all of them. -/
lemma forM_eq_ok_iff {check : β → Except ε Unit} {items : List β} :
    items.forM check = .ok () ↔ ∀ item ∈ items, check item = .ok () := by
  induction items with
  | nil => simp [List.forM, pure, Except.pure]
  | cons item items ih => rw [List.forM, bind_unit_eq_ok, ih, List.forall_mem_cons]

/-- A list of computations has the results of each of them. -/
lemma mapM_eq_ok_iff {f : β → Except ε γ} {xs : List β} {ys : List γ} :
    xs.mapM f = .ok ys ↔ List.Forall₂ (fun x y => f x = .ok y) xs ys := by
  induction xs generalizing ys with
  | nil => simp [pure, Except.pure, eq_comm]
  | cons x xs ih =>
    rw [List.mapM_cons, bind_eq_ok, List.forall₂_cons_left_iff]
    constructor
    · rintro ⟨y, hy, hrest⟩
      obtain ⟨ys', hys', heq⟩ := bind_eq_ok.1 hrest
      cases heq
      exact ⟨y, ys', hy, ih.1 hys', rfl⟩
    · rintro ⟨y, ys', hy, hys', rfl⟩
      exact ⟨y, hy, bind_eq_ok.2 ⟨ys', ih.2 hys', rfl⟩⟩

lemma exists_of_mem_mapM {f : β → Except ε γ} {xs : List β} {ys : List γ}
    (h : xs.mapM f = .ok ys) {x : β} (hx : x ∈ xs) : ∃ y ∈ ys, f x = .ok y := by
  have hall := mapM_eq_ok_iff.1 h
  clear h
  induction hall with
  | nil => exact absurd hx List.not_mem_nil
  | @cons x' y xs ys hy _ ih =>
    rcases List.mem_cons.1 hx with rfl | hx
    · exact ⟨y, List.mem_cons_self, hy⟩
    · obtain ⟨y', hy', hresult⟩ := ih hx
      exact ⟨y', List.mem_cons_of_mem y hy', hresult⟩

lemma exists_mapM_iff {f : β → Except ε γ} {xs : List β} :
    (∃ ys, xs.mapM f = .ok ys) ↔ ∀ x ∈ xs, ∃ y, f x = .ok y := by
  simp only [mapM_eq_ok_iff]
  induction xs with
  | nil => simp
  | cons x xs ih => simp [List.forall₂_cons_left_iff, ← ih]

end PointRelaxation
