import Mathlib.Data.List.FinRange
import Mathlib.Data.List.OfFn
import PointRelaxation.FoldingTable
import PointRelaxation.Proofs.Failure
import PointRelaxation.Proofs.Registry

/-!
# Drafting a scene

A scene grows by entries: points that are registered, and declarations over them. An entry is made
in the steps in which it changes the scene, and a fault keeps what was done before it, so an entry
that fails might leave a part of itself behind. None does.

* `Entry.run_drawPolygon`: the edges of a polygon, though added one by one, are added all or none.
* `Entry.write_eq_ok_iff`: which entries succeed, and what they add.
* `Scene.points_draft`: the points are those that were registered, in that order.
* `draft_integrity`: all this of any sequence of entries.
-/

namespace PointRelaxation

open FoldingTable (Building)

variable {α : Type}

/-- What is entered into a scene: a point, a declaration, or a gap between measures. -/
inductive Entry (α : Type) where
  | point (name : Option String) (rule : Option (Rule α)) (position : Vec α)
  | line (a b : String)
  | segment (a b : String)
  | polygon (corners : List String)
  | measure (a b : String) (label : Option String)
  | gap

/-! ## Looking names up -/

namespace Scene

variable {scene : Scene α} {a b name : String}

lemma discard_resolve_eq_ok_iff :
    (discard (scene.resolve name) : Except (Fault α) Unit) = .ok () ↔ name ∈ scene.names := by
  rw [← contains_iff]
  unfold resolve contains
  cases scene.find? name with
  | none => simp [discard, Functor.mapConst, Except.map]
  | some p => simp [discard, Functor.mapConst, Except.map]

lemma forM_resolve_eq_ok_iff {corners : List String} :
    (corners.forM fun name => discard (scene.resolve name) : Except (Fault α) Unit) = .ok () ↔
      ∀ name ∈ corners, name ∈ scene.names := by
  simp only [forM_eq_ok_iff, discard_resolve_eq_ok_iff]

lemma resolvePair_eq_ok_iff :
    scene.resolvePair a b = .ok () ↔ a ∈ scene.names ∧ b ∈ scene.names := by
  unfold resolvePair
  rw [bind_unit_eq_ok, discard_resolve_eq_ok_iff, discard_resolve_eq_ok_iff]

end Scene

/-! ## Making an entry -/

namespace Entry

/-- The edge that leaves a corner of a polygon. The one that leaves the last corner leads back to
the first. -/
def edge (corners : List String) (i : Fin corners.length) : String × String :=
  (corners.get i, corners.get ⟨(i + 1) % corners.length, Nat.mod_lt _ i.pos⟩)

/-- A polygon in steps: its corners are looked up, its edges are added as segments one after the
other, and then the polygon itself. -/
def drawPolygon (corners : List String) : Building α Unit := do
  if corners.length < 3 then throw .tooFewCorners
  corners.forM fun name => Building.apply fun scene => do
    discard (scene.resolve name)
    return scene
  (List.finRange corners.length).forM fun i =>
    Building.apply (·.addSegment (edge corners i).1 (edge corners i).2)
  Building.apply fun scene => .ok { scene with polygons := scene.polygons ++ [corners] }

/-- The steps of an entry. -/
def make [Scalar α] : Entry α → Building α Unit
  | point name rule position => Building.apply fun scene => do
    let (_, scene) ← scene.register name rule position
    return scene
  | line a b => Building.apply (·.addLine a b)
  | segment a b => Building.apply (·.addSegment a b)
  | polygon corners => drawPolygon corners
  | measure a b label => Building.apply (·.addMeasure a b label)
  | gap => Building.apply fun scene => .ok scene.addMeasureGap

/-- The scene behind an entry, and the fault that ended it, if any. -/
def enter [Scalar α] (scene : Scene α) (e : Entry α) : Scene α × Option (Fault α) :=
  match (e.make.run).run scene with
  | (.ok _, scene) => (scene, none)
  | (.error f, scene) => (scene, some f)

/-- The scene that an entry makes at once, if it succeeds. -/
def write [Scalar α] (scene : Scene α) : Entry α → Except (Fault α) (Scene α)
  | point name rule position => do
    let (_, scene) ← scene.register name rule position
    return scene
  | line a b => scene.addLine a b
  | segment a b => scene.addSegment a b
  | polygon corners => scene.addPolygon corners
  | measure a b label => scene.addMeasure a b label
  | gap => .ok scene.addMeasureGap

variable {scene : Scene α} {corners : List String}

/-! ## A polygon in steps -/

lemma edges_eq_ofFn : Scene.edges corners = List.ofFn (edge corners) := by
  cases corners with
  | nil => rfl
  | cons corner corners =>
    refine List.ext_getElem (by simp [Scene.edges]) fun i hi hi' => ?_
    have hlt : i < corners.length + 1 := by simpa using hi'
    simp only [Scene.edges, List.getElem_zip, List.getElem_ofFn, edge, List.get_eq_getElem,
      List.length_cons, Prod.mk.injEq, true_and]
    rcases Nat.lt_succ_iff_lt_or_eq.1 hlt with h | rfl
    · simp [List.getElem_append_left h, Nat.mod_eq_of_lt (Nat.succ_lt_succ h)]
    · simp

lemma run_bind {β γ : Type} (b : Building α β) (k : β → Building α γ) (scene : Scene α) :
    (b >>= k).run.run scene = match b.run.run scene with
      | (.ok x, scene) => (k x).run.run scene
      | (.error f, scene) => (.error f, scene) := by
  simp only [ExceptT.run_bind, StateT.run_bind]
  rcases b.run.run scene with ⟨_ | x, s⟩
  · simp only [bind]
    rfl
  · simp only [bind]

lemma run_apply (f : Scene α → Except (Fault α) (Scene α)) (scene : Scene α) :
    (Building.apply f).run.run scene = match f scene with
      | .ok scene' => (.ok (), scene')
      | .error fault => (.error fault, scene) := by
  unfold Building.apply
  rw [run_bind]
  change (match f scene with
    | .ok scene => (set scene : Building α PUnit)
    | .error fault => throw fault).run.run scene = _
  cases f scene <;> rfl

/-- Checks in sequence keep the scene and fail as they do on it alone. -/
lemma run_forM_check {β : Type} (check : Scene α → β → Except (Fault α) Unit) (items : List β) :
    (items.forM fun item => Building.apply fun scene => do
      check scene item
      return scene).run.run scene = (items.forM (check scene), scene) := by
  induction items with
  | nil => rfl
  | cons item items ih =>
    rw [List.forM, List.forM, run_bind, run_apply]
    rcases h : check scene item with f | ⟨⟩
    · rfl
    · exact ih

lemma addSegment_of_mem {a b : String} (ha : a ∈ scene.names) (hb : b ∈ scene.names) :
    scene.addSegment a b = .ok { scene with segments := scene.segments ++ [(a, b)] } := by
  unfold Scene.addSegment
  rw [Scene.resolvePair_eq_ok_iff.2 ⟨ha, hb⟩]
  rfl

/-- Between points of the scene, edges are added one after the other without a fault. -/
lemma run_forM_addSegment {β : Type} (ends : β → String × String) (items : List β)
    (h : ∀ item ∈ items, (ends item).1 ∈ scene.names ∧ (ends item).2 ∈ scene.names) :
    (items.forM fun item => Building.apply
      (·.addSegment (ends item).1 (ends item).2)).run.run scene =
      (.ok (), { scene with segments := scene.segments ++ items.map ends }) := by
  induction items generalizing scene with
  | nil =>
    rw [List.map_nil, List.append_nil]
    rfl
  | cons item items ih =>
    obtain ⟨⟨ha, hb⟩, hitems⟩ := List.forall_mem_cons.1 h
    rw [List.forM, run_bind, run_apply, addSegment_of_mem ha hb]
    have hnext := @ih { scene with segments := scene.segments ++ [ends item] } hitems
    rw [List.append_assoc] at hnext
    exact hnext

lemma edge_mem (h : ∀ name ∈ corners, name ∈ scene.names) (i : Fin corners.length) :
    (edge corners i).1 ∈ scene.names ∧ (edge corners i).2 ∈ scene.names :=
  ⟨h _ (List.get_mem corners _), h _ (List.get_mem corners _)⟩

/-- The steps of a polygon come to one, so that a polygon which fails leaves no edge behind. -/
lemma run_drawPolygon :
    (drawPolygon corners).run.run scene =
      (Building.apply (·.addPolygon corners)).run.run scene := by
  unfold drawPolygon Scene.addPolygon
  rw [run_apply]
  by_cases hlen : corners.length < 3
  · rw [if_pos hlen, if_pos hlen]
    rfl
  · rw [if_neg hlen, if_neg hlen]
    rw [run_bind, run_forM_check (fun scene name => discard (Scene.resolve scene name))]
    rcases hlook : corners.forM fun name => discard (scene.resolve name) with f | ⟨⟩
    · rfl
    · have hmem := fun i => edge_mem (Scene.forM_resolve_eq_ok_iff.1 hlook) i
      dsimp only
      rw [run_bind, run_forM_addSegment _ _ fun i _ => hmem i, edges_eq_ofFn, List.ofFn_eq_map]
      rfl

/-! ## What an entry does -/

/-- What an entry asks of a scene. -/
def Accepted [Scalar α] (scene : Scene α) : Entry α → Prop
  | point name rule position =>
    isName (name.getD scene.newName) ∧ name.getD scene.newName ∉ scene.names ∧ rule.isSome ∧
      ∃ v, Grid.round scene.decimals position = .ok v
  | line a b => a ∈ scene.names ∧ b ∈ scene.names
  | segment a b => a ∈ scene.names ∧ b ∈ scene.names
  | polygon corners => 3 ≤ corners.length ∧ ∀ name ∈ corners, name ∈ scene.names
  | measure a b _ => a ∈ scene.names ∧ b ∈ scene.names
  | gap => True

/-- What an entry that succeeds makes of a scene. -/
def Adds [Scalar α] (scene scene' : Scene α) : Entry α → Prop
  | point name rule position => ∃ r v h, rule = some r ∧
    Grid.round scene.decimals position = .ok v ∧
      scene' = scene.append (.unvisited (name.getD scene.newName) r v) h
  | line a b => scene' = { scene with lines := scene.lines ++ [(a, b)] }
  | segment a b => scene' = { scene with segments := scene.segments ++ [(a, b)] }
  | polygon corners => scene' = { scene with
      segments := scene.segments ++ List.ofFn (edge corners)
      polygons := scene.polygons ++ [corners] }
  | measure a b label => scene' =
    { scene with measures := scene.measures ++ [.distance a b label] }
  | gap => scene' = { scene with measures := scene.measures ++ [.gap] }

variable {scene' : Scene α}

lemma resolvePair_write {a b : String} {after : Scene α} :
    (do scene.resolvePair a b; return after : Except (Fault α) (Scene α)) = .ok scene' ↔
      (a ∈ scene.names ∧ b ∈ scene.names) ∧ scene' = after := by
  rw [bind_unit_eq_ok, Scene.resolvePair_eq_ok_iff]
  exact and_congr_right fun _ => ⟨fun h => (Except.ok.inj h).symm, fun h => h ▸ rfl⟩

lemma addPolygon_eq_ok_iff :
    scene.addPolygon corners = .ok scene' ↔
      (3 ≤ corners.length ∧ ∀ name ∈ corners, name ∈ scene.names) ∧ scene' = { scene with
        segments := scene.segments ++ List.ofFn (edge corners)
        polygons := scene.polygons ++ [corners] } := by
  unfold Scene.addPolygon
  by_cases hlen : corners.length < 3
  · rw [if_pos hlen]
    constructor
    · nofun
    · rintro ⟨⟨h, -⟩, -⟩
      exact absurd hlen (Nat.not_lt.2 h)
  · rw [if_neg hlen]
    change (do
      corners.forM fun name => discard (scene.resolve name)
      return _ : Except (Fault α) (Scene α)) = _ ↔ _
    rw [bind_unit_eq_ok, Scene.forM_resolve_eq_ok_iff, ← edges_eq_ofFn]
    constructor
    · rintro ⟨h, hscene⟩
      exact ⟨⟨Nat.not_lt.1 hlen, h⟩, (Except.ok.inj hscene).symm⟩
    · rintro ⟨⟨-, h⟩, rfl⟩
      exact ⟨h, rfl⟩

variable [Scalar α] {e : Entry α}

/-- An entry succeeds exactly if it is accepted, and then adds what it says. -/
lemma write_eq_ok_iff : write scene e = .ok scene' ↔ e.Accepted scene ∧ e.Adds scene scene' := by
  cases e with
  | point name rule position =>
    constructor
    · intro h
      obtain ⟨⟨p, after⟩, hregister, heq⟩ := bind_eq_ok.1 h
      cases heq
      obtain ⟨hname, r, v, hfree, hr, hv, rfl, rfl⟩ := Scene.register_eq_ok_iff.1 hregister
      exact ⟨⟨hname, mt Scene.contains_iff.2 hfree, Option.isSome_iff_exists.2 ⟨r, hr⟩, v, hv⟩,
        r, v, hfree, hr, hv, rfl⟩
    · rintro ⟨⟨hname, -⟩, r, v, hfree, hr, hv, rfl⟩
      exact bind_eq_ok.2 ⟨_, Scene.register_eq_ok_iff.2 ⟨hname, r, v, hfree, hr, hv, rfl, rfl⟩, rfl⟩
  | line a b => exact resolvePair_write
  | segment a b => exact resolvePair_write
  | polygon corners => exact addPolygon_eq_ok_iff
  | measure a b label => exact resolvePair_write
  | gap => exact ⟨fun h => ⟨trivial, (Except.ok.inj h).symm⟩, fun h => congrArg _ h.2.symm⟩

/-- An entry that fails leaves the scene as it was, though it was made in steps. -/
lemma enter_eq : enter scene e = match write scene e with
    | .ok scene' => (scene', none)
    | .error f => (scene, some f) := by
  have hrun : e.make.run.run scene = (Building.apply (write · e)).run.run scene := by
    cases e with
    | polygon corners => exact run_drawPolygon
    | _ => rfl
  unfold enter
  rw [hrun, run_apply]
  cases write scene e <;> rfl

lemma exists_adds (h : e.Accepted scene) : ∃ scene', e.Adds scene scene' := by
  cases e with
  | point name rule position =>
    obtain ⟨-, hfree, hrule, v, hv⟩ := h
    obtain ⟨r, hr⟩ := Option.isSome_iff_exists.1 hrule
    exact ⟨_, r, v, mt Scene.contains_iff.1 hfree, hr, hv, rfl⟩
  | _ => exact ⟨_, rfl⟩

/-- An entry adds what it says, or fails and leaves the scene as it was. -/
lemma enter_cases (scene : Scene α) (e : Entry α) :
    (e.Accepted scene ∧ e.Adds scene (enter scene e).1 ∧ (enter scene e).2 = none) ∨
      (¬ e.Accepted scene ∧ (enter scene e).1 = scene ∧ (enter scene e).2.isSome) := by
  rw [enter_eq]
  rcases h : write scene e with f | scene'
  · refine .inr ⟨fun haccepted => ?_, rfl, rfl⟩
    obtain ⟨scene', hadds⟩ := exists_adds haccepted
    rw [write_eq_ok_iff.2 ⟨haccepted, hadds⟩] at h
    cases h
  · obtain ⟨haccepted, hadds⟩ := write_eq_ok_iff.1 h
    exact .inl ⟨haccepted, hadds, rfl⟩

end Entry

/-! ## Sequences of entries -/

namespace Scene

/-- All that is declared refers to points of the scene. -/
structure Closed (scene : Scene α) : Prop where
  lines : ∀ l ∈ scene.lines, l.1 ∈ scene.names ∧ l.2 ∈ scene.names
  segments : ∀ l ∈ scene.segments, l.1 ∈ scene.names ∧ l.2 ∈ scene.names
  polygons : ∀ corners ∈ scene.polygons, ∀ name ∈ corners, name ∈ scene.names
  measures : ∀ a b label, .distance a b label ∈ scene.measures →
    a ∈ scene.names ∧ b ∈ scene.names

lemma closed_empty (decimals : ℕ) : (empty decimals : Scene α).Closed :=
  ⟨nofun, nofun, nofun, nofun⟩

variable {scene : Scene α}

/-- With another point, what was declared still refers to points. -/
lemma Closed.append (hclosed : scene.Closed) {p : Point α} (h : ¬ scene.contains p.name) :
    (scene.append p h).Closed := by
  have hnames : ∀ name ∈ scene.names, name ∈ (scene.append p h).names := by
    intro name hname
    unfold names Scene.append
    rw [List.map_append]
    exact List.mem_append_left _ hname
  have hpair : ∀ {a b : String}, a ∈ scene.names ∧ b ∈ scene.names →
      a ∈ (scene.append p h).names ∧ b ∈ (scene.append p h).names :=
    fun hab => hab.imp (hnames _) (hnames _)
  exact ⟨fun l hl => hpair (hclosed.lines l hl), fun l hl => hpair (hclosed.segments l hl),
    fun corners hcorners name hname => hnames _ (hclosed.polygons corners hcorners name hname),
    fun a b label hmem => hpair (hclosed.measures a b label hmem)⟩

/-- What is declared does not depend on what points are besides their names. -/
lemma Closed.mapPoints (hclosed : scene.Closed) {f : Point α → Point α}
    (h : ∀ p, (f p).name = p.name) : (scene.mapPoints f h).Closed := by
  have hnames := names_mapPoints scene h
  refine ⟨?_, ?_, ?_, ?_⟩ <;> rw [hnames]
  · exact hclosed.lines
  · exact hclosed.segments
  · exact hclosed.polygons
  · exact hclosed.measures

variable [Scalar α] {e : Entry α}

/-- The scene behind a sequence of entries, those that fail among them. -/
def draft (scene : Scene α) (entries : List (Entry α)) : Scene α :=
  entries.foldl (fun scene e => (e.enter scene).1) scene

/-- The point that an entry registers, if it is one and succeeds. -/
def registered? (scene : Scene α) : Entry α → Option (Point α)
  | .point name rule position => (scene.register name rule position).toOption.map Prod.fst
  | _ => none

/-- The points that a sequence of entries registers, in the order of the entries. -/
def registered : Scene α → List (Entry α) → List (Point α)
  | _, [] => []
  | scene, e :: entries =>
    (scene.registered? e).toList ++ ((e.enter scene).1).registered entries

/-- An entry adds the point that it registers, if any, and keeps the points there are. -/
lemma points_enter : (e.enter scene).1.points = scene.points ++ (scene.registered? e).toList := by
  rw [Entry.enter_eq]
  rcases h : Entry.write scene e with f | scene'
  · have hnone : scene.registered? e = none := by
      cases e with
      | point name rule position =>
        rcases hregister : scene.register name rule position with f' | ⟨p, after⟩
        · rw [registered?, hregister]
          rfl
        · rw [Entry.write, hregister] at h
          cases h
      | _ => rfl
    rw [hnone]
    exact (List.append_nil _).symm
  · cases e with
    | point name rule position =>
      obtain ⟨⟨p, after⟩, hregister, heq⟩ := bind_eq_ok.1 h
      cases heq
      rw [registered?, hregister]
      exact (register_eq_ok hregister).2.1
    | _ =>
      obtain ⟨-, rfl⟩ := Entry.write_eq_ok_iff.1 h
      exact (List.append_nil _).symm

lemma closed_enter (h : scene.Closed) : (e.enter scene).1.Closed := by
  obtain ⟨haccepted, hadds, -⟩ | ⟨-, hscene, -⟩ := Entry.enter_cases scene e
  · generalize (e.enter scene).1 = scene' at hadds ⊢
    cases e with
    | point name rule position =>
      obtain ⟨r, v, hfree, -, -, rfl⟩ := hadds
      exact h.append hfree
    | line a b =>
      subst hadds
      exact { h with
        lines := List.forall_mem_append.2 ⟨h.lines, List.forall_mem_singleton.2 haccepted⟩ }
    | segment a b =>
      subst hadds
      exact { h with
        segments := List.forall_mem_append.2 ⟨h.segments, List.forall_mem_singleton.2 haccepted⟩ }
    | polygon corners =>
      subst hadds
      have hedges : ∀ l ∈ List.ofFn (Entry.edge corners), l.1 ∈ scene.names ∧ l.2 ∈ scene.names :=
        List.forall_mem_ofFn_iff.2 fun i => Entry.edge_mem haccepted.2 i
      exact { h with
        segments := List.forall_mem_append.2 ⟨h.segments, hedges⟩
        polygons := List.forall_mem_append.2
          ⟨h.polygons, List.forall_mem_singleton.2 haccepted.2⟩ }
    | measure a b label =>
      subst hadds
      refine { h with measures := fun a' b' label' hmem => ?_ }
      rcases List.mem_append.1 hmem with hold | hnew
      · exact h.measures a' b' label' hold
      · cases List.mem_singleton.1 hnew
        exact haccepted
    | gap =>
      subst hadds
      refine { h with measures := fun a b label hmem => ?_ }
      rcases List.mem_append.1 hmem with hold | hnew
      · exact h.measures a b label hold
      · cases List.mem_singleton.1 hnew
  · rwa [hscene]

lemma points_draft (entries : List (Entry α)) :
    (scene.draft entries).points = scene.points ++ scene.registered entries := by
  induction entries generalizing scene with
  | nil => exact (List.append_nil _).symm
  | cons e entries ih =>
    have hstep := @ih (e.enter scene).1
    rw [points_enter, List.append_assoc] at hstep
    exact hstep

lemma closed_draft (entries : List (Entry α)) (h : scene.Closed) :
    (scene.draft entries).Closed := by
  induction entries generalizing scene with
  | nil => exact h
  | cons e entries ih => exact ih (closed_enter h)

end Scene

/-- Of a scene drafted by any sequence of entries: no name is taken twice; all that is declared
refers to points of the scene; the points are those that were registered, in that order, and none of
them was changed since. And a further entry either succeeds, if it is accepted, and adds what it
says, or it leaves the scene as it was. -/
theorem draft_integrity [Scalar α] (decimals : ℕ) (entries : List (Entry α)) :
    let scene := (Scene.empty decimals).draft entries
    scene.names.Nodup ∧ scene.Closed ∧
    scene.points = (Scene.empty decimals).registered entries ∧
    (∀ earlier, earlier <+: entries →
      ((Scene.empty decimals).draft earlier).points <+: scene.points) ∧
    ∀ e : Entry α,
      ((e.enter scene).2 = none ↔ e.Accepted scene) ∧
      ((e.enter scene).2 = none → e.Adds scene (e.enter scene).1) ∧
      ((e.enter scene).2.isSome → (e.enter scene).1 = scene) := by
  intro scene
  refine ⟨scene.nodup, Scene.closed_draft entries (Scene.closed_empty decimals),
    Scene.points_draft entries, ?_, fun e => ?_⟩
  · rintro earlier ⟨later, rfl⟩
    have hlater : scene = ((Scene.empty decimals).draft earlier).draft later :=
      List.foldl_append
    rw [hlater, Scene.points_draft later]
    exact List.prefix_append _ _
  · obtain ⟨haccepted, hadds, hnone⟩ | ⟨hrefused, hscene, hsome⟩ := Entry.enter_cases scene e
    · exact ⟨⟨fun _ => haccepted, fun _ => hnone⟩, fun _ => hadds, fun h => by simp [hnone] at h⟩
    · have hne : (e.enter scene).2 ≠ none := Option.isSome_iff_ne_none.1 hsome
      exact ⟨⟨fun h => absurd h hne, fun h => absurd h hrefused⟩, fun h => absurd h hne,
        fun _ => hscene⟩

end PointRelaxation
