import Mathlib.Data.List.Nodup
import PointRelaxation.Scene.Summary
import PointRelaxation.Scene.View

/-!
# The registry of a scene

What the operations on a scene do to its points and to the positions that rules see.

* `Scene.mem_replace`, `Scene.replace_comm`: a replacement writes one point, and replacements of
  points of different names commute.
* `Scene.positions_replace`: a replacement that keeps a position keeps all of them.
* `View.places_eq_of_positions`: what a view shows is decided by the positions it reads.
-/

namespace PointRelaxation

variable {α : Type}

namespace Scene

/-! ## Points by name -/

lemma eq_of_name_eq {scene : Scene α} {p q : Point α} (hp : p ∈ scene.points)
    (hq : q ∈ scene.points) (h : p.name = q.name) : p = q :=
  List.inj_on_of_nodup_map scene.nodup hp hq h

lemma mem_names_of_mem {scene : Scene α} {p : Point α} (hp : p ∈ scene.points) :
    p.name ∈ scene.names :=
  List.mem_map_of_mem hp

/-- No name occurs twice among points that are picked from a scene. -/
lemma nodup_names_filter (scene : Scene α) (f : Point α → Bool) :
    ((scene.points.filter f).map Point.name).Nodup :=
  scene.nodup.sublist (List.filter_sublist.map _)

lemma find?_eq_some_iff {scene : Scene α} {name : String} {p : Point α} :
    scene.find? name = some p ↔ p ∈ scene.points ∧ p.name = name := by
  unfold find?
  constructor
  · intro h
    exact ⟨List.mem_of_find?_eq_some h, by simpa using List.find?_some h⟩
  · rintro ⟨hp, rfl⟩
    rcases h : scene.points.find? (·.name == p.name) with _ | q
    · rw [List.find?_eq_none] at h
      exact absurd (beq_self_eq_true p.name) (h p hp)
    · have hq : q.name = p.name := by simpa using List.find?_some h
      exact h.trans (congrArg some (eq_of_name_eq (List.mem_of_find?_eq_some h) hp hq))

/-- No position is known of a name that is not registered. -/
lemma places_of_not_mem {scene : Scene α} {name : String} (h : name ∉ scene.names) :
    scene.places name = .error (.unknownPoint name) := by
  have hfind : scene.find? name = none := by
    rcases hp : scene.find? name with _ | p
    · rfl
    · obtain ⟨hmem, rfl⟩ := find?_eq_some_iff.1 hp
      exact absurd (mem_names_of_mem hmem) h
  unfold places resolve
  rw [hfind]
  rfl

/-- A registered point stands at its position. -/
lemma places_of_mem {scene : Scene α} {p : Point α} (hp : p ∈ scene.points) :
    scene.places p.name = .ok p.position := by
  have hfind : scene.find? p.name = some p := find?_eq_some_iff.2 ⟨hp, rfl⟩
  unfold places resolve
  rw [hfind]
  rfl

lemma exists_places_of_mem {scene : Scene α} {name : String} (h : name ∈ scene.names) :
    ∃ v, scene.places name = .ok v := by
  obtain ⟨p, hp, rfl⟩ := List.mem_map.1 h
  exact ⟨p.position, places_of_mem hp⟩

/-- Positions are known of the names that are registered, and of no others. -/
lemma exists_places_iff {scene : Scene α} {name : String} :
    (∃ v, scene.places name = .ok v) ↔ name ∈ scene.names := by
  refine ⟨fun ⟨v, hv⟩ => ?_, exists_places_of_mem⟩
  by_contra hnew
  cases hv.symm.trans (places_of_not_mem hnew)

lemma contains_iff {scene : Scene α} {name : String} :
    scene.contains name ↔ name ∈ scene.names := by
  unfold contains
  rw [Option.isSome_iff_exists]
  constructor
  · rintro ⟨p, hp⟩
    obtain ⟨hmem, rfl⟩ := find?_eq_some_iff.1 hp
    exact mem_names_of_mem hmem
  · intro h
    obtain ⟨p, hp, rfl⟩ := List.mem_map.1 h
    exact ⟨p, find?_eq_some_iff.2 ⟨hp, rfl⟩⟩

/-- A registration succeeds with a proper and free name, a rule, and a position that can be rounded.
It adds one point behind all others. -/
lemma register_eq_ok_iff [Scalar α] {scene scene' : Scene α} {name : Option String}
    {rule : Option (Rule α)} {position : Vec α} {p : Point α} :
    scene.register name rule position = .ok (p, scene') ↔
      isName (name.getD scene.newName) ∧ ∃ r v h, rule = some r ∧
        Grid.round scene.decimals position = .ok v ∧
          p = .unvisited (name.getD scene.newName) r v ∧ scene' = scene.append p h := by
  unfold register
  dsimp only
  split
  · rename_i hname
    split
    · rename_i htaken
      constructor
      · nofun
      · rintro ⟨-, r, v, h, -, -, rfl, -⟩
        exact absurd htaken h
    · rename_i hfree
      split
      · rename_i r
        rw [bind_eq_ok]
        constructor
        · rintro ⟨v, hv, h⟩
          cases h
          exact ⟨hname, r, v, hfree, rfl, hv, rfl, rfl⟩
        · rintro ⟨-, _, v, _, hr, hv, rfl, rfl⟩
          cases hr
          exact ⟨v, hv, rfl⟩
      · rename_i hnone
        constructor
        · nofun
        · rintro ⟨-, r, _, _, hr, -⟩
          exact absurd hr (hnone r)
  · rename_i hname
    constructor
    · nofun
    · rintro ⟨h, -⟩
      exact absurd h hname

/-- A registration adds one point behind all others, under a name that was free. -/
lemma register_eq_ok [Scalar α] {scene scene' : Scene α} {name : Option String}
    {rule : Option (Rule α)} {position : Vec α} {p : Point α}
    (h : scene.register name rule position = .ok (p, scene')) :
    p.name ∉ scene.names ∧ scene'.points = scene.points ++ [p] ∧
      scene'.decimals = scene.decimals := by
  obtain ⟨-, _, _, hfree, -, -, -, rfl⟩ := register_eq_ok_iff.1 h
  exact ⟨not_mem_names_of_contains_eq_false hfree, rfl, rfl⟩

/-- A registration puts its name behind those there are. -/
lemma names_register [Scalar α] {scene scene' : Scene α} {name : Option String}
    {rule : Option (Rule α)} {position : Vec α} {p : Point α}
    (h : scene.register name rule position = .ok (p, scene')) :
    scene'.names = scene.names ++ [p.name] := by
  obtain ⟨-, hpoints, -⟩ := register_eq_ok h
  unfold names
  rw [hpoints, List.map_append, List.map_singleton]

/-! ## Changing points -/

@[simp] lemma names_mapPoints (scene : Scene α) {f : Point α → Point α}
    (h : ∀ p, (f p).name = p.name) : (scene.mapPoints f h).names = scene.names :=
  map_name_map h scene.points

@[simp] lemma names_invalidate (scene : Scene α) : scene.invalidate.names = scene.names :=
  names_mapPoints scene _

/-- The scene with its points at other positions. -/
def placed (scene : Scene α) (positions : String → Vec α) : Scene α :=
  scene.mapPoints (fun p => { p with position := positions p.name }) fun _ => rfl

@[simp] lemma names_placed (scene : Scene α) (positions : String → Vec α) :
    (scene.placed positions).names = scene.names :=
  names_mapPoints scene _

/-- The scene with other points stable. -/
def marked (scene : Scene α) (stable : String → Bool) : Scene α :=
  scene.mapPoints (fun p => { p with stable := stable p.name }) fun _ => rfl

@[simp] lemma decimals_replace (scene : Scene α) (p : Point α) :
    (scene.replace p).decimals = scene.decimals := rfl

@[simp] lemma names_replace (scene : Scene α) (p : Point α) :
    (scene.replace p).names = scene.names :=
  names_mapPoints scene _

/-- Behind a replacement stand the new point, if its name was there, and the points of other
names. -/
lemma mem_replace {scene : Scene α} {p q : Point α} :
    q ∈ (scene.replace p).points ↔
      (q = p ∧ p.name ∈ scene.names) ∨ (q ∈ scene.points ∧ q.name ≠ p.name) := by
  simp only [replace, mapPoints, names, List.mem_map]
  constructor
  · rintro ⟨r, hr, rfl⟩
    by_cases h : r.name = p.name
    · exact .inl ⟨by simp [h], r, hr, h⟩
    · exact .inr (by simp [h, hr])
  · rintro (⟨rfl, r, hr, h⟩ | ⟨hq, h⟩)
    · exact ⟨r, hr, by simp [h]⟩
    · exact ⟨q, hq, by simp [h]⟩

lemma mem_replace_of_name_ne {scene : Scene α} {p q : Point α} (hq : q ∈ scene.points)
    (h : q.name ≠ p.name) : q ∈ (scene.replace p).points :=
  mem_replace.2 (.inr ⟨hq, h⟩)

/-- A replacement of one point leaves those of other names where they are. -/
lemma forall_mem_replace {scene : Scene α} {p q : Point α} {ps : List (Point α)}
    (hname : q.name = p.name) (hnd : ((p :: ps).map Point.name).Nodup)
    (hsub : ∀ p' ∈ p :: ps, p' ∈ scene.points) : ∀ p' ∈ ps, p' ∈ (scene.replace q).points := by
  rw [List.map_cons, List.nodup_cons] at hnd
  intro p' hp'
  refine mem_replace_of_name_ne (hsub p' (List.mem_cons_of_mem p hp')) ?_
  rw [hname]
  exact fun heq => hnd.1 (heq ▸ List.mem_map_of_mem hp')

/-- Under its name stands the point as it was changed. -/
lemma find?_mapPoints (scene : Scene α) {f : Point α → Point α} (h : ∀ p, (f p).name = p.name)
    (name : String) : (scene.mapPoints f h).find? name = (scene.find? name).map f := by
  unfold find? mapPoints
  rw [List.find?_map]
  congr 2
  funext p
  exact congrArg (· == name) (h p)

lemma find?_replace (scene : Scene α) (p : Point α) (name : String) :
    (scene.replace p).find? name =
      if name = p.name then (scene.find? name).map fun _ => p else scene.find? name := by
  unfold replace
  rw [find?_mapPoints]
  rcases h : scene.find? name with _ | q
  · simp
  · obtain ⟨-, rfl⟩ := find?_eq_some_iff.1 h
    by_cases hq : q.name = p.name
    · simp [hq]
    · simp [hq]

/-- Points of different names can be replaced in either order. -/
lemma replace_comm (scene : Scene α) {p q : Point α} (h : p.name ≠ q.name) :
    (scene.replace p).replace q = (scene.replace q).replace p := by
  simp only [replace, mapPoints, List.map_map, mk.injEq, true_and, and_true]
  refine List.map_congr_left fun r _ => ?_
  by_cases hp : r.name = p.name
  · simp [hp, h]
  · by_cases hq : r.name = q.name
    · simp [hq, h.symm]
    · simp [hp, hq]

/-! ## Positions -/

/-- A replacement that keeps the position of its point keeps all positions. -/
lemma positions_replace {scene : Scene α} {p q : Point α} (hp : p ∈ scene.points)
    (hname : q.name = p.name) (hpos : q.position = p.position) :
    (scene.replace q).positions = scene.positions := by
  simp only [positions, replace, mapPoints, List.map_map]
  refine List.map_congr_left fun r hr => ?_
  by_cases h : r.name = q.name
  · have hrp : r = p := eq_of_name_eq hr hp (h.trans hname)
    simp [hrp, hname, hpos]
  · simp [h]

/-- Where the points stand is decided by the list of names and positions. -/
lemma places_eq_frozen (scene other : Scene α) :
    scene.places = (View.frozen scene.positions).places other := by
  funext name
  have hfind : scene.positions.lookup name = (scene.find? name).map Point.position := by
    unfold positions find?
    induction scene.points with
    | nil => rfl
    | cons p ps ih =>
      rw [List.map_cons, List.lookup_cons, List.find?_cons, ih, Bool.beq_comm]
      cases p.name == name
      · rfl
      · rfl
  simp only [places, View.places, resolve, hfind]
  cases scene.find? name <;> rfl

lemma places_eq_of_positions {scene other : Scene α} (h : scene.positions = other.positions) :
    scene.places = other.places := by
  rw [places_eq_frozen scene scene, places_eq_frozen other scene, h]

end Scene

namespace View

/-- What a view shows of two scenes is the same if their points stand at the same positions. -/
lemma places_eq_of_positions (view : View α) {scene other : Scene α}
    (h : scene.positions = other.positions) : view.places scene = view.places other := by
  cases view with
  | live => exact Scene.places_eq_of_positions h
  | frozen positions => rfl

/-- A view that has just been made shows where the points stand. -/
lemma places_make (scene : Scene α) (frozen : Bool) :
    (make scene frozen).places scene = scene.places := by
  cases frozen with
  | false => rfl
  | true => exact (Scene.places_eq_frozen scene scene).symm

end View
end PointRelaxation
