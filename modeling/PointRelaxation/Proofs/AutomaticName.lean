import PointRelaxation.Proofs.Digits
import PointRelaxation.Proofs.Registry

/-!
# Names that are picked

A point that is registered without a name is named by the number of points before it. Names of this
form can also be given, and one that was given early is in the way when its number comes up.

* `Registered.names_eq`: which names a scene has, by the names that were asked for.
* `Registered.newName_mem_iff`: the name that is picked is taken only if it was given before.
* `automatic_name_taken`: it can be.
* `automatic_name`: what a registration without a name does.
-/

namespace PointRelaxation

variable {α : Type}

/-- The name that the point behind `n` others gets when none is given. -/
def automaticName (n : ℕ) : String := "P" ++ toString n

/-- The scenes that come of registrations which all succeed, with the names that were asked for, in
that order. -/
inductive Registered [Scalar α] : List (Option String) → Scene α → Prop
  | empty (decimals : ℕ) : Registered [] (Scene.empty decimals)
  | register {asked : List (Option String)} {scene scene' : Scene α} {name : Option String}
      {rule : Option (Rule α)} {position : Vec α} {p : Point α} : Registered asked scene →
      scene.register name rule position = .ok (p, scene') → Registered (asked ++ [name]) scene'

/-! ## The form of the names -/

lemma toList_automaticName (n : ℕ) : (automaticName n).toList = 'P' :: Text.digits n := by
  unfold automaticName
  rw [String.toList_append, Text.toList_toString]
  rfl

lemma automaticName_injective : Function.Injective automaticName := by
  intro m n h
  have hlists := congrArg String.toList h
  rw [toList_automaticName, toList_automaticName] at hlists
  exact Text.digits_injective (List.tail_eq_of_cons_eq hlists)

/-- Neither the letter nor a digit is blank. -/
lemma not_isBlank_of_mem {n : ℕ} {c : Char} (h : c ∈ (automaticName n).toList) :
    Text.isBlank c = false := by
  rw [toList_automaticName] at h
  rcases List.mem_cons.1 h with rfl | hdigit
  · decide
  · have hc := Text.isDigit_of_mem_digits hdigit
    simp only [Char.isDigit, Bool.and_eq_true, decide_eq_true_eq, ge_iff_le,
      UInt32.le_iff_toNat_le] at hc
    obtain ⟨hlow, hhigh⟩ : 48 ≤ c.toNat ∧ c.toNat ≤ 57 := hc
    simp only [Text.isBlank, Bool.or_eq_false_iff, Bool.and_eq_false_iff, decide_eq_false_iff_not,
      beq_eq_false_iff_ne]
    omega

lemma isName_automaticName (n : ℕ) : isName (automaticName n) := by
  have hbreak : (automaticName n).toList.getLast? ≠ some '\n' := by
    intro h
    have hblank := not_isBlank_of_mem (List.mem_of_getLast? h)
    exact absurd hblank (by decide)
  unfold isName withoutFinalBreak
  rw [if_neg hbreak]
  simp only [Bool.and_eq_true, List.all_eq_true]
  refine ⟨?_, fun c hc => ?_⟩
  · rw [toList_automaticName]
    rfl
  · rw [not_isBlank_of_mem hc]
    rfl

/-! ## The names of a scene -/

namespace Registered

variable [Scalar α] {asked : List (Option String)} {scene : Scene α}

lemma size_eq (h : Registered asked scene) : scene.size = asked.length := by
  induction h with
  | empty decimals => rfl
  | register _ hregister ih =>
    obtain ⟨-, hpoints, -⟩ := Scene.register_eq_ok hregister
    rw [Scene.size, hpoints, List.length_append, List.length_append]
    exact congrArg (· + 1) ih

lemma newName_eq (h : Registered asked scene) : scene.newName = automaticName asked.length :=
  congrArg automaticName h.size_eq

/-- A point has the name that was asked for, or the one that belongs to its place. -/
lemma names_eq (h : Registered asked scene) :
    scene.names = asked.mapIdx fun i name => name.getD (automaticName i) := by
  induction h with
  | empty decimals => rfl
  | @register asked scene scene' name rule position p hscene hregister ih =>
    obtain ⟨-, r, v, hfree, -, -, rfl, rfl⟩ := Scene.register_eq_ok_iff.1 hregister
    have hnames : (scene.append _ hfree).names = scene.names ++ [name.getD scene.newName] :=
      List.map_append
    rw [hnames, ih, hscene.newName_eq, List.mapIdx_concat]

/-- The name that is picked next is taken exactly if it was asked for before. -/
lemma newName_mem_iff (h : Registered asked scene) :
    scene.newName ∈ scene.names ↔ some scene.newName ∈ asked := by
  rw [h.newName_eq, h.names_eq, List.mem_mapIdx]
  constructor
  · rintro ⟨i, hi, hname⟩
    rcases hasked : asked[i] with _ | name
    · -- a name picked earlier is that of an earlier place
      rw [hasked] at hname
      exact absurd (automaticName_injective hname) (Nat.ne_of_lt hi)
    · rw [hasked] at hname
      obtain rfl : name = automaticName asked.length := hname
      exact hasked ▸ List.getElem_mem hi
  · intro hmem
    obtain ⟨i, hi, hasked⟩ := List.getElem_of_mem hmem
    exact ⟨i, hi, by rw [hasked]; rfl⟩

end Registered

/-! ## Registrations without a name -/

/-- A position can be rounded if its coordinates can. -/
lemma Grid.exists_round [Scalar α] {decimals : ℕ} {v : Vec α}
    (hx : (roundCoordinate decimals v.x).isOk) (hy : (roundCoordinate decimals v.y).isOk) :
    ∃ w, round decimals v = .ok w := by
  rcases hx' : roundCoordinate decimals v.x with f | x
  · rw [hx'] at hx
    cases hx
  rcases hy' : roundCoordinate decimals v.y with f | y
  · rw [hy'] at hy
    cases hy
  obtain ⟨m, hm, hxm⟩ := bind_eq_ok.1 hx'
  obtain ⟨n, hn, hyn⟩ := bind_eq_ok.1 hy'
  have hcell : cell decimals v = .ok ⟨m, n⟩ := bind_eq_ok.2 ⟨m, hm, bind_eq_ok.2 ⟨n, hn, rfl⟩⟩
  have hplace : place decimals ⟨m, n⟩ = .ok ⟨x, y⟩ :=
    bind_eq_ok.2 ⟨x, hxm, bind_eq_ok.2 ⟨y, hyn, rfl⟩⟩
  exact ⟨⟨x, y⟩, bind_eq_ok.2 ⟨_, hcell, hplace⟩⟩

/-- At so many decimals a count of cells is still a scalar, and the origin can be rounded. -/
lemma exists_round_zero {decimals : ℕ} (h : decimals ≤ 308) :
    ∃ v, Grid.round decimals (Vec.zero : Vec Float) = .ok v := by
  have hall : ∀ d : Fin 309, (Grid.roundCoordinate (d : ℕ) (0.0 : Float)).isOk := by
    decide +kernel
  have hzero := hall ⟨decimals, Nat.lt_succ_of_le h⟩
  exact Grid.exists_round hzero hzero

/-- A point of a new name can be registered at the origin. -/
lemma Scene.exists_register_zero {scene : Scene Float} (hdecimals : scene.decimals ≤ 308)
    {name : String} (hname : isName name) (hnew : name ∉ scene.names) (rule : Rule Float) :
    ∃ p scene', scene.register (some name) (some rule) Vec.zero = .ok (p, scene') ∧
      scene'.names = scene.names ++ [name] := by
  obtain ⟨v, hv⟩ := exists_round_zero hdecimals
  have hregister : scene.register (some name) (some rule) Vec.zero = .ok _ :=
    register_eq_ok_iff.2 ⟨hname, rule, v, mt contains_iff.1 hnew, rfl, hv, rfl, rfl⟩
  exact ⟨_, _, hregister, names_register hregister⟩

/-- A name that is taken is refused. -/
lemma Scene.register_none_of_mem [Scalar α] {scene : Scene α} (hname : isName scene.newName)
    (hmem : scene.newName ∈ scene.names) (rule : Option (Rule α)) (position : Vec α) :
    scene.register none rule position = .error (.duplicatePoint scene.newName) := by
  unfold register
  dsimp only [Option.getD_none]
  rw [if_pos hname, dif_pos (contains_iff.2 hmem)]
  rfl

/-- A scene of one point, under any name that points can have. -/
lemma exists_registered_one (name : Option String) (hname : isName (name.getD "P0")) :
    ∃ scene : Scene Float, Registered [name] scene ∧ scene.decimals = 2 := by
  have hround : ∃ v, Grid.round (2 : ℕ) (Vec.zero : Vec Float) = .ok v :=
    exists_round_zero (by decide)
  obtain ⟨v, hv⟩ := hround
  have hfree : ¬ (Scene.empty 2 : Scene Float).contains (name.getD "P0") := Bool.false_ne_true
  have hregister : (Scene.empty 2).register name (some fun _ _ => .ok 0.0) Vec.zero = .ok _ :=
    Scene.register_eq_ok_iff.2 ⟨hname, _, v, hfree, rfl, hv, rfl, rfl⟩
  exact ⟨_, Registered.register (Registered.empty 2) hregister, rfl⟩

/-- The name that is picked can be taken, and the registration fails then; and if the decimals are
so many that the origin cannot be rounded, it fails though the name is free. -/
theorem automatic_name_taken :
    (¬ ∀ (asked : List (Option String)) (scene : Scene Float), Registered asked scene →
      scene.newName ∉ scene.names) ∧
    (¬ ∀ (asked : List (Option String)) (scene : Scene Float), Registered asked scene →
      ∀ rule : Rule Float, ∃ p scene',
        scene.register none (some rule) Vec.zero = .ok (p, scene')) ∧
    ∀ rule : Rule Float, ¬ ∃ p scene',
      (Scene.empty 400).register none (some rule) Vec.zero = .ok (p, scene') := by
  obtain ⟨scene, hscene, -⟩ := exists_registered_one (some "P1") (by decide)
  have htaken : scene.newName ∈ scene.names := by
    rw [hscene.newName_mem_iff, hscene.newName_eq]
    decide
  refine ⟨fun hfresh => hfresh _ scene hscene htaken, fun hsucceeds => ?_, fun rule => ?_⟩
  · obtain ⟨p, scene', hregister⟩ := hsucceeds _ scene hscene fun _ _ => .ok 0.0
    obtain ⟨-, _, _, hfree, -, -, rfl, -⟩ := Scene.register_eq_ok_iff.1 hregister
    exact hfree (Scene.contains_iff.2 htaken)
  · rintro ⟨p, scene', hregister⟩
    obtain ⟨-, _, v, -, -, hv, -⟩ := Scene.register_eq_ok_iff.1 hregister
    have hround : ¬ (Grid.round (400 : ℕ) (Vec.zero : Vec Float)).isOk := by decide +kernel
    have hv' : Grid.round (400 : ℕ) (Vec.zero : Vec Float) = .ok v := hv
    rw [hv'] at hround
    exact hround rfl

/-- The name that is picked for a point is always a name that points can have. It is taken exactly
if it was asked for before, and then the registration is refused for that reason. Otherwise it
succeeds at every position that can be rounded, among them the origin, unless the decimals are more
than a scalar can count. -/
theorem automatic_name {asked : List (Option String)} {scene : Scene Float}
    (h : Registered asked scene) (rule : Rule Float) (position : Vec Float) :
    isName scene.newName ∧
    (scene.newName ∈ scene.names ↔ some scene.newName ∈ asked) ∧
    (some scene.newName ∈ asked →
      scene.register none (some rule) position = .error (.duplicatePoint scene.newName)) ∧
    (some scene.newName ∉ asked → ∀ v, Grid.round scene.decimals position = .ok v →
      ∃ p scene', scene.register none (some rule) position = .ok (p, scene') ∧
        p = .unvisited scene.newName rule v ∧ scene'.points = scene.points ++ [p]) ∧
    (scene.decimals ≤ 308 →
      ∃ v, Grid.round scene.decimals (Vec.zero : Vec Float) = .ok v) := by
  have hname : isName scene.newName := isName_automaticName scene.size
  refine ⟨hname, h.newName_mem_iff, fun hasked => ?_, fun hfresh v hv => ?_, exists_round_zero⟩
  · exact Scene.register_none_of_mem hname (h.newName_mem_iff.2 hasked) (some rule) position
  · have hfree : ¬ scene.contains scene.newName :=
      fun hmem => hfresh (h.newName_mem_iff.1 (Scene.contains_iff.1 hmem))
    exact ⟨_, _, Scene.register_eq_ok_iff.2 ⟨hname, rule, v, hfree, rfl, hv, rfl, rfl⟩, rfl, rfl⟩

/-- Behind one point the name `P1` is picked: in vain if the point was given that name, and to the
purpose if it was not. -/
theorem automatic_name_second :
    (∃ scene : Scene Float, Registered [some "P1"] scene ∧
      ∀ rule, scene.register none (some rule) Vec.zero = .error (.duplicatePoint "P1")) ∧
    ∃ scene : Scene Float, Registered [none] scene ∧
      ∀ rule, ∃ p scene', scene.register none (some rule) Vec.zero = .ok (p, scene') ∧
        p.name = "P1" := by
  constructor
  · obtain ⟨scene, hscene, -⟩ := exists_registered_one (some "P1") (by decide)
    have hnew : scene.newName = "P1" := hscene.newName_eq
    refine ⟨scene, hscene, fun rule => ?_⟩
    obtain ⟨-, -, htaken, -⟩ := automatic_name hscene rule Vec.zero
    rw [hnew] at htaken
    exact htaken (by decide)
  · obtain ⟨scene, hscene, hdecimals⟩ := exists_registered_one none (by decide)
    have hnew : scene.newName = "P1" := hscene.newName_eq
    refine ⟨scene, hscene, fun rule => ?_⟩
    obtain ⟨-, -, -, hfresh, hround⟩ := automatic_name hscene rule Vec.zero
    obtain ⟨v, hv⟩ := hround (by rw [hdecimals]; decide)
    obtain ⟨p, scene', hregister, rfl, -⟩ := hfresh (by rw [hnew]; decide) v hv
    exact ⟨_, scene', hregister, hnew⟩

end PointRelaxation
