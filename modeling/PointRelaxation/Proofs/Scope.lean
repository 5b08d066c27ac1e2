import Mathlib.Data.List.Basic
import PointRelaxation.Rule.Term

/-!
# What a term looks at

The names in a term are all that it can look up. Its value is decided by the trial position and the
places of these points, and unless one of them is unknown the term has a value or fails for the only
reason that geometry has: a vector without a direction.

* `Term.eval_congr`: a term has one value at places that agree on the points it looks at.
* `Term.isGeometric`: a check that rules out every other reason to fail.
* `Term.eval_isGeometric`: a term that passes it has a value or meets a vector without direction.
* `inOrder`: a check that each of some named terms looks only at the names before its own.
-/

namespace PointRelaxation

/-! ## Peers -/

mutual

/-- The points that a term looks at. -/
def Term.peers {α : Type} : {k : Kind} → Term α k → List String
  | _, .const _ => []
  | _, .trial => []
  | _, .point name => [name]
  | _, .apply _ args => Args.peers args
  | _, .ifLess a b less otherwise =>
    Term.peers a ++ Term.peers b ++ (Term.peers less ++ Term.peers otherwise)
  | _, .misplaced t => Term.peers t
  | _, .nil => []
  | _, .cons head tail => Term.peers head ++ Term.peers tail

/-- The points that arguments look at. -/
def Args.peers {α : Type} : {ks : List Kind} → Args α ks → List String
  | _, .nil => []
  | _, .cons head tail => Term.peers head ++ Args.peers tail

end

section

variable {α : Type} [Scalar α] {p : Vec α} {places places' : Places α}

mutual

/-- The value of a term is decided by the trial position and the places of the points that the term
looks at. -/
lemma Term.eval_congr : {k : Kind} → (t : Term α k) →
    (∀ name ∈ t.peers, places name = places' name) → t.eval p places = t.eval p places'
  | _, .const _, _ => rfl
  | _, .trial, _ => rfl
  | _, .point name, h => h name (List.mem_singleton_self name)
  | _, .apply op args, h => by simp only [Term.eval, Args.eval_congr args h]
  | _, .ifLess a b less otherwise, h => by
    simp only [Term.peers, List.forall_mem_append] at h
    obtain ⟨⟨ha, hb⟩, hless, hotherwise⟩ := h
    simp only [Term.eval, Term.eval_congr a ha, Term.eval_congr b hb, Term.eval_congr less hless,
      Term.eval_congr otherwise hotherwise]
  | _, .misplaced t, h => by simp only [Term.eval, Term.eval_congr t h]
  | _, .nil, _ => rfl
  | _, .cons head tail, h => by
    obtain ⟨hhead, htail⟩ := List.forall_mem_append.1 h
    simp only [Term.eval, Term.eval_congr head hhead, Term.eval_congr tail htail]

lemma Args.eval_congr : {ks : List Kind} → (args : Args α ks) →
    (∀ name ∈ args.peers, places name = places' name) → args.eval p places = args.eval p places'
  | _, .nil, _ => rfl
  | _, .cons head tail, h => by
    obtain ⟨hhead, htail⟩ := List.forall_mem_append.1 h
    simp only [Args.eval, Term.eval_congr head hhead, Args.eval_congr tail htail]

end

end

/-! ## Geometric terms -/

/-- A list with an item in front. -/
def Term.isCons {α : Type} {k : Kind} : Term α (.many k) → Bool
  | .cons _ _ => true
  | _ => false

/-- Whether an operation on arguments fails, if at all, for want of a direction: it divides nothing,
and there is something to be in the middle of and something to add up. -/
def Operation.admits {α : Type} : {ks : List Kind} → {k : Kind} → Operation ks k → Args α ks → Bool
  | _, _, .ratio, _ => false
  | _, _, .atMiddleOf, .cons _ (.cons points .nil) => points.isCons
  | _, _, .combine, .cons scores .nil => scores.isCons
  | _, _, _, _ => true

mutual

/-- Whether a term fails, if at all, for want of a direction, once the points that it looks at are
known. -/
def Term.isGeometric {α : Type} : {k : Kind} → Term α k → Bool
  | _, .const _ => true
  | _, .trial => true
  | _, .point _ => true
  | _, .apply op args => op.admits args && Args.isGeometric args
  | _, .ifLess a b less otherwise =>
    Term.isGeometric a && Term.isGeometric b && (Term.isGeometric less && Term.isGeometric otherwise)
  | _, .misplaced _ => false
  | _, .nil => true
  | _, .cons head tail => Term.isGeometric head && Term.isGeometric tail

/-- Whether arguments fail, if at all, for want of a direction. -/
def Args.isGeometric {α : Type} : {ks : List Kind} → Args α ks → Bool
  | _, .nil => true
  | _, .cons head tail => Term.isGeometric head && Args.isGeometric tail

end

/-- A computation that has a result, or meets a vector without a direction. -/
def Geometric {α β : Type} (x : Except (Fault α) β) : Prop :=
  (∃ b, x = .ok b) ∨ ∃ v, x = .error (.zeroLength v)

section

variable {α β γ : Type}

lemma geometric_ok (b : β) : Geometric (.ok b : Except (Fault α) β) := .inl ⟨b, rfl⟩

lemma Geometric.bind {x : Except (Fault α) β} {f : β → Except (Fault α) γ} (hx : Geometric x)
    (hf : ∀ b, x = .ok b → Geometric (f b)) : Geometric (x >>= f) := by
  obtain ⟨b, rfl⟩ | ⟨v, rfl⟩ := hx
  · exact hf b rfl
  · exact .inr ⟨v, rfl⟩

variable [Scalar α]

lemma geometric_normalize (v : Vec α) : Geometric (Vec.normalize v) := by
  unfold Vec.normalize
  dsimp only
  split
  · exact .inr ⟨v, rfl⟩
  · exact geometric_ok _

lemma geometric_angleBetween (u v : Vec α) : Geometric (Vec.angleBetween u v) :=
  (geometric_normalize u).bind fun _ _ => (geometric_normalize v).bind fun _ _ => geometric_ok _

variable {p : Vec α} {places : Places α}

/-- The values of a list with an item in front have a value in front. -/
lemma Term.exists_cons_of_isCons {k : Kind} {t : Term α (.many k)} (h : t.isCons)
    {values : List (k.denote α)} (hvalues : t.eval p places = .ok values) :
    ∃ x xs, values = x :: xs := by
  cases t with
  | cons head tail =>
    obtain ⟨x, -, hrest⟩ := bind_eq_ok.1 hvalues
    obtain ⟨xs, -, heq⟩ := bind_eq_ok.1 hrest
    exact ⟨x, xs, (Except.ok.inj heq).symm⟩
  | _ => exact absurd h Bool.false_ne_true

lemma Args.eval_cons_eq_ok {k : Kind} {ks : List Kind} {head : Term α k} {tail : Args α ks}
    {values : Values α (k :: ks)} (h : (Args.cons head tail).eval p places = .ok values) :
    head.eval p places = .ok values.1 ∧ tail.eval p places = .ok values.2 := by
  obtain ⟨x, hx, hrest⟩ := bind_eq_ok.1 h
  obtain ⟨xs, hxs, heq⟩ := bind_eq_ok.1 hrest
  cases heq
  exact ⟨hx, hxs⟩

/-- Operations fail as they are said to. -/
lemma Operation.geometric_apply {ks : List Kind} {k : Kind} (op : Operation ks k)
    {args : Args α ks} (h : op.admits args) {values : Values α ks}
    (hvalues : args.eval p places = .ok values) : Geometric (op.apply values) := by
  cases op with
  | ratio => exact absurd h Bool.false_ne_true
  | atMiddleOf =>
    obtain _ | ⟨position, _ | ⟨points, _ | _⟩⟩ := args
    obtain ⟨-, htail⟩ := Args.eval_cons_eq_ok hvalues
    obtain ⟨hpoints, -⟩ := Args.eval_cons_eq_ok htail
    obtain ⟨q, qs, hqs⟩ := Term.exists_cons_of_isCons h hpoints
    show Geometric (Score.atMiddleOf values.1 values.2.1)
    rw [hqs]
    exact geometric_ok _
  | combine =>
    obtain _ | ⟨scores, _ | _⟩ := args
    obtain ⟨hscores, -⟩ := Args.eval_cons_eq_ok hvalues
    obtain ⟨s, ss, hss⟩ := Term.exists_cons_of_isCons h hscores
    show Geometric (Score.combined values.1)
    rw [hss]
    exact geometric_ok _
  | normalize => exact geometric_normalize _
  | angleBetween => exact geometric_angleBetween _ _
  | angleAt => exact geometric_angleBetween _ _
  | atAngle => exact (geometric_angleBetween _ _).bind fun _ _ => geometric_ok _
  | alignedWith => exact (geometric_normalize _).bind fun _ _ => geometric_ok _
  | _ => exact geometric_ok _

mutual

/-- A geometric term has a value, or meets a vector without a direction, wherever the points that it
looks at stand. -/
lemma Term.eval_isGeometric : {k : Kind} → (t : Term α k) → t.isGeometric →
    (∀ name ∈ t.peers, ∃ v, places name = .ok v) → Geometric (t.eval p places)
  | _, .const x, _, _ => geometric_ok x
  | _, .trial, _, _ => geometric_ok p
  | _, .point name, _, hknown => .inl (hknown name (List.mem_singleton_self name))
  | _, .apply op args, h, hknown => by
    obtain ⟨hop, hargs⟩ := Bool.and_eq_true_iff.1 h
    exact (Args.eval_isGeometric args hargs hknown).bind fun _ hvalues =>
      op.geometric_apply hop hvalues
  | _, .ifLess a b less otherwise, h, hknown => by
    simp only [Term.isGeometric, Bool.and_eq_true] at h
    obtain ⟨⟨ha, hb⟩, hless, hotherwise⟩ := h
    simp only [Term.peers, List.forall_mem_append] at hknown
    obtain ⟨⟨hka, hkb⟩, hkless, hkotherwise⟩ := hknown
    refine (Term.eval_isGeometric a ha hka).bind fun x _ =>
      (Term.eval_isGeometric b hb hkb).bind fun y _ => ?_
    split
    · exact Term.eval_isGeometric less hless hkless
    · exact Term.eval_isGeometric otherwise hotherwise hkotherwise
  | _, .misplaced _, h, _ => absurd h Bool.false_ne_true
  | _, .nil, _, _ => geometric_ok []
  | _, .cons head tail, h, hknown => by
    obtain ⟨hhead, htail⟩ := Bool.and_eq_true_iff.1 h
    obtain ⟨hkhead, hktail⟩ := List.forall_mem_append.1 hknown
    exact (Term.eval_isGeometric head hhead hkhead).bind fun _ _ =>
      (Term.eval_isGeometric tail htail hktail).bind fun _ _ => geometric_ok _

lemma Args.eval_isGeometric : {ks : List Kind} → (args : Args α ks) → args.isGeometric →
    (∀ name ∈ args.peers, ∃ v, places name = .ok v) → Geometric (args.eval p places)
  | _, .nil, _, _ => geometric_ok ()
  | _, .cons head tail, h, hknown => by
    obtain ⟨hhead, htail⟩ := Bool.and_eq_true_iff.1 h
    obtain ⟨hkhead, hktail⟩ := List.forall_mem_append.1 hknown
    exact (Term.eval_isGeometric head hhead hkhead).bind fun _ _ =>
      (Args.eval_isGeometric tail htail hktail).bind fun _ _ => geometric_ok _

end

end

/-! ## Terms in order -/

/-- Whether each of some named terms looks only at names that are known already or stand before its
own. -/
def inOrder {α : Type} {k : Kind} : (known : List String) → List (String × Term α k) → Bool
  | _, [] => true
  | known, (name, t) :: rest => t.peers.all (· ∈ known) && inOrder (known ++ [name]) rest

lemma peers_of_inOrder {α : Type} {k : Kind} {known : List String} {name : String} {t : Term α k}
    {before after : List (String × Term α k)}
    (h : inOrder known (before ++ (name, t) :: after)) :
    ∀ peer ∈ t.peers, peer ∈ known ∨ peer ∈ before.map Prod.fst := by
  induction before generalizing known with
  | nil =>
    obtain ⟨hpeers, -⟩ := Bool.and_eq_true_iff.1 h
    simp only [List.all_eq_true, decide_eq_true_eq] at hpeers
    exact fun peer hpeer => .inl (hpeers peer hpeer)
  | cons e before ih =>
    obtain ⟨-, hrest⟩ := Bool.and_eq_true_iff.1 h
    intro peer hpeer
    rcases ih hrest peer hpeer with hknown | hbefore
    · rcases List.mem_append.1 hknown with hknown | hname
      · exact .inl hknown
      · exact .inr (List.mem_singleton.1 hname ▸ List.mem_cons_self)
    · exact .inr (List.mem_cons_of_mem _ hbefore)

end PointRelaxation
