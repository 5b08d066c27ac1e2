import PointRelaxation.Proofs.AutomaticName
import PointRelaxation.Proofs.Draft
import PointRelaxation.Proofs.Scope

/-!
# The scene of the folding table

The rules of the folding table look each other's points up by name, and what is drawn over them is
declared by name. A name that is misspelt, or that is registered too late, would show only when the
rule is evaluated. There is none.

* `Scene.writeAll`: entries that have to succeed one after the other, which is how the table is
  built.
* `FoldingTable.exists_build`: building the table succeeds, and what it leaves.
* `folding_table_closed`: its rules look only at points before their own and fail only for want of
  a direction, and all that is declared refers to its points.
-/

namespace PointRelaxation

open FoldingTable (Building)

variable {α : Type}

namespace Entry

/-- Whether an entry declares something over known names. -/
def declaresOver (names : List String) : Entry α → Bool
  | point _ _ _ => false
  | line a b => a ∈ names && b ∈ names
  | segment a b => a ∈ names && b ∈ names
  | polygon corners => 3 ≤ corners.length && corners.all (· ∈ names)
  | measure a b _ => a ∈ names && b ∈ names
  | gap => true

/-- The scene with what an entry declares. -/
def declare (scene : Scene α) : Entry α → Scene α
  | point _ _ _ => scene
  | line a b => { scene with lines := scene.lines ++ [(a, b)] }
  | segment a b => { scene with segments := scene.segments ++ [(a, b)] }
  | polygon corners => { scene with
      segments := scene.segments ++ Scene.edges corners
      polygons := scene.polygons ++ [corners] }
  | measure a b label => { scene with measures := scene.measures ++ [.distance a b label] }
  | gap => scene.addMeasureGap

lemma names_declare (scene : Scene α) (e : Entry α) : (declare scene e).names = scene.names := by
  cases e <;> rfl

/-- A declaration over points of the scene succeeds. -/
lemma write_of_declaresOver [Scalar α] {scene : Scene α} {e : Entry α}
    (h : e.declaresOver scene.names) : write scene e = .ok (declare scene e) := by
  cases e with
  | point name rule position => exact absurd h Bool.false_ne_true
  | gap => rfl
  | polygon corners =>
    simp only [declaresOver, Bool.and_eq_true, decide_eq_true_eq, List.all_eq_true] at h
    refine write_eq_ok_iff.2 ⟨h, ?_⟩
    show declare scene (polygon corners) = _
    rw [declare, edges_eq_ofFn]
  | _ =>
    simp only [declaresOver, Bool.and_eq_true, decide_eq_true_eq] at h
    exact write_eq_ok_iff.2 ⟨h, rfl⟩

end Entry

/-! ## Entries that all succeed -/

namespace Scene

variable [Scalar α] {scene scene' : Scene α} {entries : List (Entry α)}

/-- The scene behind entries, each of which has to succeed. -/
def writeAll (scene : Scene α) (entries : List (Entry α)) : Except (Fault α) (Scene α) :=
  entries.foldlM Entry.write scene

lemma writeAll_append {later : List (Entry α)} (h : scene.writeAll entries = .ok scene') :
    scene.writeAll (entries ++ later) = scene'.writeAll later := by
  unfold writeAll at h ⊢
  rw [List.foldlM_append, h]
  rfl

lemma draft_of_writeAll (h : scene.writeAll entries = .ok scene') :
    scene.draft entries = scene' := by
  induction entries generalizing scene with
  | nil => exact Except.ok.inj h
  | cons e entries ih =>
    obtain ⟨next, hnext, hrest⟩ := bind_eq_ok.1 h
    have henter : (e.enter scene).1 = next := by rw [Entry.enter_eq, hnext]
    show ((e.enter scene).1).draft entries = scene'
    rw [henter]
    exact ih hrest

lemma run_forM_write (h : scene.writeAll entries = .ok scene') :
    (entries.forM fun e => Building.apply (Entry.write · e)).run.run scene = (.ok (), scene') := by
  induction entries generalizing scene with
  | nil => exact congrArg _ (Except.ok.inj h)
  | cons e entries ih =>
    obtain ⟨next, hnext, hrest⟩ := bind_eq_ok.1 h
    rw [List.forM, Entry.run_bind, Entry.run_apply, hnext]
    exact ih hrest

/-- Points of names that are proper, free and all different can be registered one after the other
where the origin can be rounded. -/
lemma exists_writeAll_points (scene : Scene α) {v : Vec α}
    (hround : Grid.round scene.decimals Vec.zero = .ok v) {rules : List (String × Rule α)}
    (hproper : ∀ r ∈ rules, isName r.1)
    (hnodup : (scene.names ++ rules.map Prod.fst).Nodup) :
    ∃ h, scene.writeAll (rules.map fun r => .point (some r.1) (some r.2) Vec.zero) =
      .ok { scene with
        points := scene.points ++ rules.map fun r => .unvisited r.1 r.2 v
        nodup := h } := by
  induction rules generalizing scene with
  | nil => exact ⟨by simpa using scene.nodup, by simp [writeAll, pure, Except.pure]⟩
  | cons r rules ih =>
    obtain ⟨hname, hrest⟩ := List.forall_mem_cons.1 hproper
    rw [List.map_cons, List.append_cons] at hnodup
    have hfree : ¬ scene.contains r.1 := by
      intro htaken
      have hapart := (List.nodup_append.1 (List.nodup_append.1 hnodup).1).2.2
      exact hapart r.1 (contains_iff.1 htaken) r.1 (List.mem_singleton_self r.1) rfl
    have hwrite : Entry.write scene (.point (some r.1) (some r.2) Vec.zero) =
        .ok (scene.append (.unvisited r.1 r.2 v) hfree) :=
      bind_eq_ok.2 ⟨_, register_eq_ok_iff.2 ⟨hname, r.2, v, hfree, rfl, hround, rfl, rfl⟩, rfl⟩
    have hnames : (scene.append (.unvisited r.1 r.2 v) hfree).names = scene.names ++ [r.1] :=
      List.map_append
    obtain ⟨h, hall⟩ := ih (scene.append (.unvisited r.1 r.2 v) hfree) hround hrest
      (hnames ▸ hnodup)
    have hpoints : (scene.append (.unvisited r.1 r.2 v) hfree).points ++
          rules.map (fun r => Point.unvisited r.1 r.2 v) =
        scene.points ++ (r :: rules).map fun r => Point.unvisited r.1 r.2 v := by
      rw [List.map_cons, List.append_cons]
      rfl
    refine ⟨hpoints ▸ h, bind_eq_ok.2 ⟨_, hwrite, hall.trans ?_⟩⟩
    simp only [hpoints]
    rfl

lemma writeAll_of_declaresOver (h : ∀ e ∈ entries, e.declaresOver scene.names) :
    scene.writeAll entries = .ok (entries.foldl Entry.declare scene) := by
  induction entries generalizing scene with
  | nil => rfl
  | cons e entries ih =>
    obtain ⟨he, hrest⟩ := List.forall_mem_cons.1 h
    refine bind_eq_ok.2 ⟨_, Entry.write_of_declaresOver he, ih ?_⟩
    rwa [Entry.names_declare]

end Scene

/-! ## Building the table -/

namespace FoldingTable

variable [Scalar α]

/-- What is declared over the points of the table. -/
def declarations : List (Entry α) :=
  .line "A4" "B1" :: polygons.map .polygon ++ measures.map fun
    | .distance a b label => .measure a b label
    | .gap => .gap

/-- The table in entries: its points, and what is declared over them. -/
def entries (table : FoldingTable α) : List (Entry α) :=
  (table.rules.map fun r => (r.1, r.2.toRule)).map
    (fun r => .point (some r.1) (some r.2) Vec.zero) ++ declarations

lemma build_eq (table : FoldingTable α) :
    table.build = table.entries.forM fun e => Building.apply (Entry.write · e) := by
  unfold build entries declarations
  simp only [List.forM_eq_forM, List.forM_append, List.forM_cons, List.forM_map, bind_assoc]
  congr

/-- The names of the points, whatever the measures of the table. -/
lemma names_rules (table : FoldingTable α) :
    table.rules.map Prod.fst = ["A1", "A2", "A3", "A4", "P", "B3", "B2", "B4", "B1", "C1", "C2",
      "C3", "C4", "P2", "M", "T1", "T4", "T2", "T3", "M2", "TT1", "TT2", "TT4", "TT3"] := rfl

/-- Where the origin can be rounded the table can be built. Its points are unvisited and have the
rules of the table, and all that is declared refers to them. -/
lemma exists_build (table : FoldingTable α) {decimals : ℕ} {v : Vec α}
    (hround : Grid.round decimals (Vec.zero : Vec α) = .ok v) :
    ∃ scene : Scene α, table.buildInto (.empty decimals) = (scene, none) ∧
      scene.points = table.rules.map (fun r => .unvisited r.1 r.2.toRule v) ∧
      scene.Closed ∧ scene.polygons = polygons ∧
      scene.segments = polygons.flatMap Scene.edges := by
  have hnames : ((table.rules.map fun r => (r.1, r.2.toRule)).map Prod.fst) =
      table.rules.map Prod.fst := by
    rw [List.map_map]
    rfl
  have hproper : ∀ r ∈ table.rules.map (fun r => (r.1, r.2.toRule)), isName r.1 := by
    have hall : ∀ name ∈ table.rules.map Prod.fst, isName name := by
      rw [names_rules]
      decide
    intro r hr
    exact hall r.1 (hnames ▸ List.mem_map_of_mem hr)
  have hnodup : ((Scene.empty decimals : Scene α).names ++
      (table.rules.map fun r => (r.1, r.2.toRule)).map Prod.fst).Nodup := by
    rw [hnames, names_rules]
    show List.Nodup (_ :: _)
    decide
  obtain ⟨h, hpoints⟩ := Scene.exists_writeAll_points (.empty decimals) hround
    hproper hnodup
  set placed : Scene α := { (Scene.empty decimals : Scene α) with
    points := (Scene.empty decimals : Scene α).points ++
      (table.rules.map fun r => (r.1, r.2.toRule)).map fun r => .unvisited r.1 r.2 v
    nodup := h } with hplaced
  have hdeclares : ∀ e ∈ (declarations : List (Entry α)), e.declaresOver placed.names := by
    have hplacedNames : placed.names = table.rules.map Prod.fst := rfl
    rw [hplacedNames, names_rules]
    rw [← List.all_eq_true]
    rfl
  have hall : (Scene.empty decimals).writeAll table.entries =
      .ok (declarations.foldl Entry.declare placed) := by
    rw [entries, Scene.writeAll_append hpoints]
    exact Scene.writeAll_of_declaresOver hdeclares
  refine ⟨declarations.foldl Entry.declare placed, ?_, rfl, ?_, rfl, rfl⟩
  · unfold buildInto
    rw [build_eq, Scene.run_forM_write hall]
  · rw [← Scene.draft_of_writeAll hall]
    exact Scene.closed_draft table.entries (Scene.closed_empty decimals)

/-! ## The rules of the table -/

/-- A rule of the table fails, if at all, for want of a direction. -/
lemma isGeometric_of_mem (table : FoldingTable α) {name : String} {t : Number α}
    (h : (name, t) ∈ table.rules) : t.isGeometric := by
  have hall : table.rules.all (·.2.isGeometric) = true := rfl
  exact List.all_eq_true.1 hall (name, t) h

/-- A rule of the table looks only at points before its own. -/
lemma mem_before_of_mem_peers (table : FoldingTable α) {before after : List (String × Number α)}
    {name : String} {t : Number α} (h : table.rules = before ++ (name, t) :: after) {peer : String}
    (hpeer : peer ∈ t.peers) : peer ∈ before.map Prod.fst := by
  have hall : inOrder [] table.rules = true := rfl
  rw [h] at hall
  exact (peers_of_inOrder hall peer hpeer).resolve_left List.not_mem_nil

/-- Where points come of the rules of the table, the rule of a point looks only at those before
it. -/
lemma exists_rule_of_split (table : FoldingTable α) {v : Vec α} {before after : List (Point α)}
    {point : Point α}
    (h : table.rules.map (fun r => .unvisited r.1 r.2.toRule v) = before ++ point :: after) :
    ∃ t : Number α, point.rule = t.toRule ∧ t.isGeometric ∧
      ∀ peer ∈ t.peers, peer ∈ before.map Point.name := by
  obtain ⟨first, rest, hrules, rfl, hrest⟩ := List.map_eq_append_iff.1 h
  obtain ⟨⟨name, t⟩, later, rfl, rfl, -⟩ := List.map_eq_cons_iff.1 hrest
  have hmem : (name, t) ∈ table.rules := by
    rw [hrules]
    exact List.mem_append_cons_self
  refine ⟨t, rfl, table.isGeometric_of_mem hmem, fun peer hpeer => ?_⟩
  rw [List.map_map]
  exact table.mem_before_of_mem_peers hrules hpeer

end FoldingTable

namespace Scene

/-- A view of a scene knows all of its points, wherever they stood when it was made and stand
now. -/
lemma exists_places_placed {scene : Scene α} {name : String} (h : name ∈ scene.names)
    (earlier now : String → Vec α) (frozen : Bool) :
    ∃ v, (View.make (scene.placed earlier) frozen).places (scene.placed now) name = .ok v := by
  have hknown : ∀ positions, ∃ v, (scene.placed positions).places name = .ok v := by
    intro positions
    apply exists_places_of_mem
    rwa [names_placed]
  cases frozen with
  | false => exact hknown now
  | true =>
    have hfrozen := places_eq_frozen (scene.placed earlier) (scene.placed now)
    exact hfrozen ▸ hknown earlier

end Scene

/-- Folding tables of all measures can be built, and the scene is closed: the rules of its points
look only at points that were registered before their own; against every view of the scene, wherever
the points stood when it was made and stand now, they have a score or meet a vector without a
direction; and all that is declared, with four polygons whose edges are its sixteen segments, refers
to its points. -/
theorem folding_table_closed (table : FoldingTable Float) {decimals : ℕ} (h : decimals ≤ 308) :
    ∃ scene, table.buildInto (.empty decimals) = (scene, none) ∧ scene.points.length = 24 ∧
      (∀ before point after, scene.points = before ++ point :: after → ∀ p,
        (∀ earlier now frozen,
          let view := View.make (scene.placed earlier) frozen
          (∃ s, point.rule p (view.places (scene.placed now)) = .ok s) ∨
            ∃ v, point.rule p (view.places (scene.placed now)) = .error (.zeroLength v)) ∧
        ∀ places places' : Places Float, (∀ q ∈ before, places q.name = places' q.name) →
          point.rule p places = point.rule p places') ∧
      scene.Closed ∧ scene.polygons.length = 4 ∧
      scene.segments = scene.polygons.flatMap Scene.edges ∧ scene.segments.length = 16 := by
  obtain ⟨v, hv⟩ := exists_round_zero h
  obtain ⟨scene, hbuild, hpoints, hclosed, hpolygons, hsegments⟩ := table.exists_build hv
  have hlength : scene.points.length = table.rules.length := by rw [hpoints, List.length_map]
  refine ⟨scene, hbuild, hlength, fun before point after hsplit p => ?_, hclosed, ?_, ?_, ?_⟩
  · obtain ⟨t, hrule, hgeometric, hbefore⟩ := table.exists_rule_of_split (hpoints ▸ hsplit)
    rw [hrule]
    constructor
    · intro earlier now frozen
      apply Term.eval_isGeometric t hgeometric
      intro peer hpeer
      apply Scene.exists_places_placed
      rw [Scene.names, hsplit, List.map_append]
      exact List.mem_append_left _ (hbefore peer hpeer)
    · intro places places' hagree
      apply Term.eval_congr t
      intro peer hpeer
      obtain ⟨q, hq, rfl⟩ := List.mem_map.1 (hbefore peer hpeer)
      exact hagree q hq
  · rw [hpolygons]
    rfl
  · rw [hsegments, hpolygons]
  · rw [hsegments]
    rfl

/-- The table of the default measures, in a scene of the default decimals. -/
theorem folding_table_closed_default :
    Scene.defaultDecimals ≤ 308 ∧
    ∃ scene, ({} : FoldingTable Float).buildInto (.empty Scene.defaultDecimals) = (scene, none) ∧
      scene.points.length = 24 ∧ scene.Closed ∧ scene.segments.length = 16 := by
  have h : Scene.defaultDecimals ≤ 308 := by decide
  obtain ⟨scene, hbuild, hlength, -, hclosed, -, -, hsegments⟩ := folding_table_closed {} h
  exact ⟨h, scene, hbuild, hlength, hclosed, hsegments⟩

end PointRelaxation
