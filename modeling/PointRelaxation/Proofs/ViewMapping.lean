import PointRelaxation.Proofs.Exact
import PointRelaxation.Proofs.Growth

/-!
# Views as mappings

A view lists names and tells the position of a name. It should list the names whose positions it
tells, whatever happens to the scene after the view was made. A live view reads both from the scene.
A frozen one keeps the positions, but lists the names that the scene has come to have.

* `View.IsMapping`: a view lists the names that it knows.
* `views_are_mappings`: which views do so, and what they show.
* `view_outgrown`: a frozen view lists a name that it does not know.
-/

namespace PointRelaxation

variable {α : Type} [Scalar α]

/-! ## Mappings -/

namespace View

/-- A view of a scene that is consistent: it lists as many names as there are points, each once, and
those are the names that it knows; it is said of any other name that it is unknown. -/
structure IsMapping (view : View α) (scene : Scene α) : Prop where
  length_names : (view.names scene).length = scene.size
  nodup_names : (view.names scene).Nodup
  known_iff : ∀ name, (∃ v, view.places scene name = .ok v) ↔ name ∈ view.names scene
  unknown : ∀ name, name ∉ view.names scene →
    view.places scene name = .error (.unknownPoint name)

omit [Scalar α] in
/-- A frozen view shows where the points stood, whatever the scene is like. -/
lemma places_make_frozen (scene other : Scene α) :
    (make scene true).places other = scene.places :=
  (Scene.places_eq_frozen scene other).symm

omit [Scalar α] in
lemma isMapping_live (scene scene' : Scene α) : (make scene false).IsMapping scene' where
  length_names := List.length_map _
  nodup_names := scene'.nodup
  known_iff _ := Scene.exists_places_iff
  unknown _ := Scene.places_of_not_mem

/-- A frozen view lists the names that it knows exactly if no point was registered since. -/
lemma isMapping_frozen_iff {scene scene' : Scene α} (h : scene.Later scene') :
    (make scene true).IsMapping scene' ↔ scene'.names = scene.names := by
  have hplaces := places_make_frozen scene scene'
  constructor
  · intro hmapping
    -- the names of the scene as it was are the first ones, and there is no other among them
    obtain ⟨since, hsince⟩ := h.names_prefix
    rcases since with _ | ⟨name, since⟩
    · rw [← hsince, List.append_nil]
    · have hlisted : name ∈ scene'.names := by
        rw [← hsince]
        exact List.mem_append_cons_self
      have hknown := (hmapping.known_iff name).2 hlisted
      rw [hplaces, Scene.exists_places_iff] at hknown
      have hnodup : scene'.names.Nodup := scene'.nodup
      rw [← hsince, List.nodup_append] at hnodup
      exact absurd rfl (hnodup.2.2 name hknown name List.mem_cons_self)
  · intro hnames
    have hlisted : (make scene true).names scene' = scene.names := hnames
    refine ⟨List.length_map _, scene'.nodup, fun name => ?_, fun name hname => ?_⟩
    · rw [hplaces, hlisted]
      exact Scene.exists_places_iff
    · rw [hplaces]
      rw [hlisted] at hname
      exact Scene.places_of_not_mem hname

end View

/-- Whatever becomes of a scene after views of it were made: the live one lists the names that it
knows, each of them once, and shows where their points stand now. The frozen one knows the names
that were registered when it was made, shows where their points stood then, and has no position for
any other name; it lists these names first, and as long as no point is registered it lists no
others, so that it too lists what it knows. -/
theorem views_are_mappings {scene scene' : Scene α} (h : scene.Later scene') :
    let view := View.make scene
    (view false).IsMapping scene' ∧
    (∀ p ∈ scene'.points, (view false).places scene' p.name = .ok p.position) ∧
    (∀ p ∈ scene.points, (view true).places scene' p.name = .ok p.position) ∧
    (∀ name, name ∉ scene.names → (view true).places scene' name = .error (.unknownPoint name)) ∧
    scene.names <+: (view true).names scene' ∧
    ((view true).IsMapping scene' ↔ scene'.names = scene.names) := by
  intro view
  have hfrozen : (view true).places scene' = scene.places := View.places_make_frozen scene scene'
  refine ⟨View.isMapping_live scene scene', fun p hp => Scene.places_of_mem hp, fun p hp => ?_,
    fun name hname => ?_, h.names_prefix, View.isMapping_frozen_iff h⟩
  · rw [hfrozen]
    exact Scene.places_of_mem hp
  · rw [hfrozen]
    exact Scene.places_of_not_mem hname

/-- The second point of the pursuit is registered, and both move in the pass that follows. A view
that was frozen before it was registered does not know it, and one that was frozen before the pass
is consistent. -/
theorem views_are_mappings_pursuit :
    let scene := Exact.pursuitPass.scene
    Exact.solitude.Later scene ∧ Exact.pursuit.Later scene ∧
    (View.make Exact.solitude false).IsMapping scene ∧
    (View.make Exact.solitude true).places scene "A" = .ok Exact.startingPoint ∧
    (View.make Exact.solitude true).places scene "B" = .error (.unknownPoint "B") ∧
    (View.make Exact.pursuit true).places scene "B" = .ok Exact.startingPoint ∧
    (View.make Exact.pursuit true).IsMapping scene := by
  intro scene
  have hpass : ∀ {before : Scene Exact}, before.Later Exact.pursuit → before.Later scene :=
    fun h => h.pass (.start Exact.pursuitOptions Exact.pursuitDraws)
  have hsolitude : Exact.solitude.Later scene :=
    hpass (Scene.Later.now.register Exact.register_pursuit)
  have hpursuit : Exact.pursuit.Later scene := hpass .now
  obtain ⟨hmapping, -, hstood, hunknown, -, -⟩ := views_are_mappings hsolitude
  obtain ⟨-, -, hstood', -, -, hconsistent⟩ := views_are_mappings hpursuit
  refine ⟨hsolitude, hpursuit, hmapping, hstood _ List.mem_cons_self, hunknown "B" (by decide),
    ?_, hconsistent.2 Relaxation.names_pass⟩
  exact hstood' (.unvisited "B" Exact.toLeader Exact.startingPoint) (by simp [Exact.pursuit])

/-- A view is frozen, and then a point is registered: the view lists its name, and does not know
it. -/
theorem view_outgrown :
    ∃ (scene scene' : Scene Float) (rule : Rule Float) (p : Point Float), scene.names = ["A"] ∧
      scene.register (some "B") (some rule) Vec.zero = .ok (p, scene') ∧
      (View.make scene true).names scene' = ["A", "B"] ∧
      (View.make scene true).places scene' "B" = .error (.unknownPoint "B") ∧
      ¬ (View.make scene true).IsMapping scene' := by
  obtain ⟨scene, hscene, hdecimals⟩ := exists_registered_one (some "A") (by decide)
  have hnames : scene.names = ["A"] := hscene.names_eq
  have hnew : "B" ∉ scene.names := by
    rw [hnames]
    decide
  obtain ⟨p, scene', hregister, hgrown⟩ := Scene.exists_register_zero (by rw [hdecimals]; decide)
    (show isName "B" by decide) hnew fun _ _ => .ok 0.0
  refine ⟨scene, scene', _, p, hnames, hregister, hgrown.trans (by rw [hnames]; rfl), ?_, ?_⟩
  · rw [View.places_make_frozen]
    exact Scene.places_of_not_mem hnew
  · rw [View.isMapping_frozen_iff (Scene.Later.now.register hregister), hgrown]
    exact fun hsame => List.cons_ne_nil _ _ (List.append_right_eq_self.1 hsame)

end PointRelaxation
