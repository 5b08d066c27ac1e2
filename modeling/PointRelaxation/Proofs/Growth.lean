import PointRelaxation.Proofs.AutomaticName
import PointRelaxation.Proofs.Draft
import PointRelaxation.Proofs.Pass

/-!
# What becomes of a scene

A scene changes by entries, by passes, and when something is set on its points. What survives each
of these holds of all that becomes of a scene.

* `Scene.Later`: what becomes of a scene.
* `Scene.Later.names_prefix`: the names there were stay in front.
* `Scene.Later.closed`: declarations refer to points still.
* `Scene.Later.isName`: the names are still names that points can have.
-/

namespace PointRelaxation

variable {α : Type} [Scalar α]

namespace Scene

/-- What becomes of a scene by entries, those that fail among them, by passes, of which each may
belong to another relaxation and may have been ended by a fault, and by changes to its points that
keep their names. -/
inductive Later (scene : Scene α) : Scene α → Prop
  | now : Later scene scene
  | enter {before : Scene α} (e : Entry α) : Later scene before → Later scene (e.enter before).1
  | pass {before : Scene α} {σ : Type} [Draws σ α] (r : Relaxation α σ) :
      Later scene before → Later scene (r.pass before).scene
  | change {before : Scene α} {f : Point α → Point α} (h : ∀ p, (f p).name = p.name) :
      Later scene before → Later scene (before.mapPoints f h)

variable {scene scene' : Scene α}

/-! ## Single changes -/

lemma names_enter {e : Entry α} :
    (e.enter scene).1.names = scene.names ++ (scene.registered? e).toList.map Point.name := by
  unfold names
  rw [points_enter, List.map_append]

lemma isName_of_registered? {e : Entry α} {p : Point α} (h : p ∈ scene.registered? e) :
    PointRelaxation.isName p.name := by
  cases e with
  | point name rule position =>
    rcases hregister : scene.register name rule position with f | ⟨q, after⟩
    · rw [registered?, hregister] at h
      cases h
    · rw [registered?, hregister] at h
      cases h
      obtain ⟨hname, r, v, hfree, -, -, rfl, -⟩ := register_eq_ok_iff.1 hregister
      exact hname
  | _ => cases h

/-- A pass declares nothing. -/
lemma Closed.pass {σ : Type} [Draws σ α] (h : scene.Closed) (r : Relaxation α σ) :
    (r.pass scene).scene.Closed := by
  constructor
  · rw [Relaxation.names_pass, Relaxation.pass_keeps Scene.lines fun _ _ => rfl]
    exact h.lines
  · rw [Relaxation.names_pass, Relaxation.pass_keeps Scene.segments fun _ _ => rfl]
    exact h.segments
  · rw [Relaxation.names_pass, Relaxation.pass_keeps Scene.polygons fun _ _ => rfl]
    exact h.polygons
  · rw [Relaxation.names_pass, Relaxation.pass_keeps Scene.measures fun _ _ => rfl]
    exact h.measures

/-! ## All changes -/

namespace Later

/-- The names that a scene had stay in front of those that were registered since. -/
lemma names_prefix (h : scene.Later scene') : scene.names <+: scene'.names := by
  induction h with
  | now => exact List.prefix_rfl
  | enter e _ ih =>
    rw [names_enter]
    exact ih.trans (List.prefix_append _ _)
  | pass r _ ih =>
    rw [Relaxation.names_pass]
    exact ih
  | change hname _ ih =>
    rw [names_mapPoints]
    exact ih

lemma closed (h : scene.Later scene') (hclosed : scene.Closed) : scene'.Closed := by
  induction h with
  | now => exact hclosed
  | enter e _ ih => exact closed_enter ih
  | pass r _ ih => exact ih.pass r
  | change hname _ ih => exact ih.mapPoints hname

lemma isName (h : scene.Later scene') (hnames : ∀ name ∈ scene.names, PointRelaxation.isName name) :
    ∀ name ∈ scene'.names, PointRelaxation.isName name := by
  induction h with
  | now => exact hnames
  | enter e _ ih =>
    rw [names_enter]
    refine List.forall_mem_append.2 ⟨ih, List.forall_mem_map.2 fun p hp => ?_⟩
    exact isName_of_registered? (Option.mem_toList.1 hp)
  | pass r _ ih =>
    rw [Relaxation.names_pass]
    exact ih
  | change hname _ ih =>
    rw [names_mapPoints]
    exact ih

lemma register {before after : Scene α} {name : Option String} {rule : Option (Rule α)}
    {position : Vec α} {p : Point α} (h : scene.Later before)
    (hregister : before.register name rule position = .ok (p, after)) : scene.Later after := by
  have hwrite : Entry.write before (.point name rule position) = .ok after :=
    bind_eq_ok.2 ⟨_, hregister, rfl⟩
  have henter := h.enter (.point name rule position)
  rwa [Entry.enter_eq, hwrite] at henter

end Later
end Scene

/-- Registrations make something of an empty scene. -/
lemma Registered.exists_later {asked : List (Option String)} {scene : Scene α}
    (h : Registered asked scene) : ∃ decimals, (Scene.empty decimals).Later scene := by
  induction h with
  | empty decimals => exact ⟨decimals, .now⟩
  | register _ hregister ih =>
    obtain ⟨decimals, hlater⟩ := ih
    exact ⟨decimals, hlater.register hregister⟩

end PointRelaxation
