import PointRelaxation.Proofs.FieldArithmetic
import PointRelaxation.Candidates.Scoring
import PointRelaxation.Proofs.CloudShift

/-!
# Rules in a moved plane

A rotation and a translation carry the plane onto itself. What a rule is about comes along:
positions are moved, displacements are only turned, and lengths and angles stay as they are. A rule
that is built of the primitives then scores a moved position as it scored the position, and misses a
direction where it missed one. Nothing is asked of roots and angles for that.

* `Motion`: a rotation, then a translation.
* `Motion.carry`: what becomes of the outcome of an operation.
* `Primitive.score_moved`: a primitive whose arguments come along has the same score.
* `Rule.Moved`: two rules that are built alike, the second one for the moved plane.
* `Rule.IsComposite.exists_moved`: whatever a rule is built of, there is one for the moved plane.
* `Verdict.ofCell_eq_ofLocated`: cells are judged at the positions that a grid has for them.
* `moved_rules_agree`: the scores in a moved plane, and the candidate that is chosen there.
-/

namespace PointRelaxation

/-- A rotation about the origin, then a translation. -/
structure Motion (α : Type) [FieldScalar α] where
  cos : α
  sin : α
  shift : Vec α
  unit : cos ^ 2 + sin ^ 2 = 1

variable {α : Type} [FieldScalar α]

namespace Motion

variable (m : Motion α)

/-- What becomes of a displacement. -/
def turn (v : Vec α) : Vec α := ⟨m.cos * v.x - m.sin * v.y, m.sin * v.x + m.cos * v.y⟩

/-- What becomes of a position. -/
def move (v : Vec α) : Vec α := Vec.add (m.turn v) m.shift

/-- What becomes of a fault. The vector that has no direction is a displacement. -/
def fault : Fault α → Fault α
  | .zeroLength v => .zeroLength (m.turn v)
  | f => f

/-- What becomes of the outcome of an operation, where `f` says what becomes of its result. -/
def carry {β γ : Type} (f : β → γ) : Except (Fault α) β → Except (Fault α) γ
  | .ok b => .ok (f b)
  | .error e => .error (m.fault e)

/-- Where the points stand in the moved plane. -/
def places (places : Places α) : Places α := fun name => m.carry m.move (places name)

/-! ## Outcomes -/

lemma carry_bind {β β' γ γ' : Type} {f : β → β'} {g : γ → γ'} {x : Except (Fault α) β}
    {k : β → Except (Fault α) γ} {k' : β' → Except (Fault α) γ'}
    (h : ∀ b, k' (f b) = m.carry g (k b)) : m.carry f x >>= k' = m.carry g (x >>= k) := by
  cases x with
  | error e => rfl
  | ok b => exact h b

lemma carry_eq_zeroLength_iff {β γ : Type} {f : β → γ} {x : Except (Fault α) β} :
    (∃ v, m.carry f x = .error (.zeroLength v)) ↔ ∃ v, x = .error (.zeroLength v) := by
  constructor
  · intro ⟨v, hv⟩
    cases x with
    | ok b => cases hv
    | error e =>
      cases e with
      | zeroLength w => exact ⟨w, rfl⟩
      | _ => cases hv
  · intro ⟨v, hv⟩
    exact ⟨m.turn v, by rw [hv]; rfl⟩

@[simp] lemma isDegenerate_fault (f : Fault α) : (m.fault f).isDegenerate = f.isDegenerate := by
  cases f <;> rfl

/-! ## The vector operations -/

lemma between_move (a b : Vec α) :
    Vec.between (m.move a) (m.move b) = m.turn (Vec.between a b) := by
  simp only [Vec.between, move, turn, Vec.add, Vec.mk.injEq]
  constructor <;> ring

lemma add_move (a v : Vec α) : Vec.add (m.move a) (m.turn v) = m.move (Vec.add a v) := by
  simp only [move, turn, Vec.add, Vec.mk.injEq]
  constructor <;> ring

lemma dot_turn (u v : Vec α) : Vec.dot (m.turn u) (m.turn v) = Vec.dot u v := by
  have hexpand : Vec.dot (m.turn u) (m.turn v) = (m.cos ^ 2 + m.sin ^ 2) * Vec.dot u v := by
    simp only [Vec.dot, turn]
    ring
  rw [hexpand, m.unit, one_mul]

/-- The orientation is kept, so the cross product is too. -/
lemma cross_turn (u v : Vec α) : Vec.cross (m.turn u) (m.turn v) = Vec.cross u v := by
  have hexpand : Vec.cross (m.turn u) (m.turn v) = (m.cos ^ 2 + m.sin ^ 2) * Vec.cross u v := by
    simp only [Vec.cross, turn]
    ring
  rw [hexpand, m.unit, one_mul]

lemma norm_turn (v : Vec α) : Vec.norm (m.turn v) = Vec.norm v :=
  congrArg Scalar.sqrt (m.dot_turn v v)

lemma distance_move (a b : Vec α) : Vec.distance (m.move a) (m.move b) = Vec.distance a b := by
  unfold Vec.distance
  rw [between_move, norm_turn]

lemma normalize_turn (v : Vec α) :
    Vec.normalize (m.turn v) = m.carry m.turn (Vec.normalize v) := by
  unfold Vec.normalize
  rw [norm_turn]
  dsimp only
  split_ifs with hshort
  · rfl
  · show Except.ok _ = Except.ok _
    simp only [turn, Except.ok.injEq, Vec.mk.injEq]
    constructor <;> ring

lemma angleAt_move (a vertex c : Vec α) :
    Vec.angleAt (m.move a) (m.move vertex) (m.move c) = m.carry id (Vec.angleAt a vertex c) := by
  unfold Vec.angleAt Vec.angleBetween
  rw [between_move, between_move, normalize_turn, normalize_turn]
  refine m.carry_bind fun u => m.carry_bind fun v => ?_
  rw [cross_turn, dot_turn]
  rfl

/-! ## The way back -/

/-- The motion that takes the moved plane back. -/
def back : Motion α where
  cos := m.cos
  sin := -m.sin
  shift := ⟨-(m.cos * m.shift.x + m.sin * m.shift.y), m.sin * m.shift.x - m.cos * m.shift.y⟩
  unit := by
    rw [neg_sq]
    exact m.unit

lemma back_turn (v : Vec α) : m.back.turn (m.turn v) = v := by
  have hx : (m.back.turn (m.turn v)).x = (m.cos ^ 2 + m.sin ^ 2) * v.x := by
    simp only [turn, back]
    ring
  have hy : (m.back.turn (m.turn v)).y = (m.cos ^ 2 + m.sin ^ 2) * v.y := by
    simp only [turn, back]
    ring
  rw [m.unit, one_mul] at hx hy
  exact congrArg₂ Vec.mk hx hy

lemma back_move (v : Vec α) : m.back.move (m.move v) = v := by
  have hsum : m.back.move (m.move v) = m.back.turn (m.turn v) := by
    simp only [move, turn, back, Vec.add, Vec.mk.injEq]
    constructor <;> ring
  rw [hsum, back_turn]

lemma back_fault (f : Fault α) : m.back.fault (m.fault f) = f := by
  cases f with
  | zeroLength v => exact congrArg Fault.zeroLength (m.back_turn v)
  | _ => rfl

lemma back_places (positions : Places α) : m.back.places (m.places positions) = positions := by
  funext name
  unfold places
  cases positions name with
  | ok v => exact congrArg Except.ok (m.back_move v)
  | error f => exact congrArg Except.error (m.back_fault f)

end Motion

/-! ## Primitives -/

/-- A primitive with all that it is about. Any of the positions may be the trial position. -/
inductive Primitive (α : Type) where
  | atPosition (p target : Vec α)
  | onCircle (p center : Vec α) (radius : α)
  | atAngle (angle : α) (a vertex c : Vec α)
  | translatedByVector (p origin offset : Vec α)
  | translatedBySegment (p origin start finish : Vec α)
  | atMiddleOf (p : Vec α) (points : List (Vec α))
  | closerToThan (p near far : Vec α)
  | alignedWith (p a b : Vec α)

namespace Primitive

def score {α : Type} [Scalar α] : Primitive α → Except (Fault α) α
  | atPosition p target => .ok (Score.atPosition p target.x target.y)
  | onCircle p center radius => .ok (Score.onCircle p center radius)
  | atAngle angle a vertex c => Score.atAngle angle a vertex c
  | translatedByVector p origin offset => .ok (Score.translatedByVector p origin offset)
  | translatedBySegment p origin start finish =>
    .ok (Score.translatedBySegment p origin start finish)
  | atMiddleOf p points => Score.atMiddleOf p points
  | closerToThan p near far => .ok (Score.closerToThan p near far)
  | alignedWith p a b => Score.alignedWith p a b

/-- What becomes of a primitive: its positions are moved, an offset is turned, and a radius and an
angle stay. -/
def moved (m : Motion α) : Primitive α → Primitive α
  | atPosition p target => atPosition (m.move p) (m.move target)
  | onCircle p center radius => onCircle (m.move p) (m.move center) radius
  | atAngle angle a vertex c => atAngle angle (m.move a) (m.move vertex) (m.move c)
  | translatedByVector p origin offset =>
    translatedByVector (m.move p) (m.move origin) (m.turn offset)
  | translatedBySegment p origin start finish =>
    translatedBySegment (m.move p) (m.move origin) (m.move start) (m.move finish)
  | atMiddleOf p points => atMiddleOf (m.move p) (points.map m.move)
  | closerToThan p near far => closerToThan (m.move p) (m.move near) (m.move far)
  | alignedWith p a b => alignedWith (m.move p) (m.move a) (m.move b)

end Primitive

namespace Score

variable (m : Motion α)

lemma onCircle_move (p center : Vec α) (radius : α) :
    onCircle (m.move p) (m.move center) radius = onCircle p center radius := by
  unfold onCircle
  rw [m.distance_move]

lemma translatedByVector_move (p origin offset : Vec α) :
    translatedByVector (m.move p) (m.move origin) (m.turn offset) =
      translatedByVector p origin offset := by
  unfold translatedByVector
  rw [m.add_move, m.distance_move]

lemma translatedBySegment_move (p origin start finish : Vec α) :
    translatedBySegment (m.move p) (m.move origin) (m.move start) (m.move finish) =
      translatedBySegment p origin start finish := by
  unfold translatedBySegment
  rw [m.between_move, translatedByVector_move]

lemma atMiddleOf_move (p : Vec α) (points : List (Vec α)) :
    atMiddleOf (m.move p) (points.map m.move) = m.carry id (atMiddleOf p points) := by
  cases points with
  | nil => rfl
  | cons q qs =>
    simp only [List.map_cons, atMiddleOf, List.foldl_map, m.distance_move]
    rfl

lemma closerToThan_move (p near far : Vec α) :
    closerToThan (m.move p) (m.move near) (m.move far) = closerToThan p near far := by
  unfold closerToThan
  rw [m.distance_move, m.distance_move]

lemma atAngle_move (angle : α) (a vertex c : Vec α) :
    atAngle angle (m.move a) (m.move vertex) (m.move c) =
      m.carry id (atAngle angle a vertex c) := by
  unfold atAngle
  rw [m.angleAt_move]
  exact m.carry_bind fun _ => rfl

lemma alignedWith_move (p a b : Vec α) :
    alignedWith (m.move p) (m.move a) (m.move b) = m.carry id (alignedWith p a b) := by
  unfold alignedWith
  rw [m.between_move, m.between_move, m.normalize_turn]
  refine m.carry_bind fun direction => ?_
  rw [m.cross_turn]
  rfl

end Score

/-- A primitive that comes along has the same score, or the same fault. -/
lemma Primitive.score_moved (m : Motion α) (P : Primitive α) :
    (P.moved m).score = m.carry id P.score := by
  cases P with
  | atPosition p target => exact congrArg Except.ok (congrArg Neg.neg (m.distance_move p target))
  | onCircle p center radius => exact congrArg Except.ok (Score.onCircle_move m p center radius)
  | atAngle angle a vertex c => exact Score.atAngle_move m angle a vertex c
  | translatedByVector p origin offset =>
    exact congrArg Except.ok (Score.translatedByVector_move m p origin offset)
  | translatedBySegment p origin start finish =>
    exact congrArg Except.ok (Score.translatedBySegment_move m p origin start finish)
  | atMiddleOf p points => exact Score.atMiddleOf_move m p points
  | closerToThan p near far => exact congrArg Except.ok (Score.closerToThan_move m p near far)
  | alignedWith p a b => exact Score.alignedWith_move m p a b

/-! ## Rules -/

/-- A primitive that is found when a rule is evaluated: what it is about can depend on the trial
position and on where the points stand, and looking it up can fail. -/
abbrev Query (α : Type) := Vec α → Places α → Except (Fault α) (Primitive α)

/-- The rule that scores what is found. -/
def Query.rule {α : Type} [Scalar α] (q : Query α) : Rule α := fun p places => do
  let P ← q p places
  P.score

/-- What is found in the moved plane: it is looked up where the points stood before, and then comes
along. -/
def Query.moved (m : Motion α) (q : Query α) : Query α := fun p places =>
  m.carry (.moved m) (q (m.back.move p) (m.back.places places))

lemma Query.moved_move (m : Motion α) (q : Query α) (p : Vec α) (places : Places α) :
    q.moved m (m.move p) (m.places places) = m.carry (.moved m) (q p places) := by
  unfold Query.moved
  rw [m.back_move, m.back_places]

/-- A rule that is built of primitives and of sums of rules. -/
inductive Rule.IsComposite {α : Type} [Scalar α] : Rule α → Prop
  | primitive (q : Query α) : IsComposite q.rule
  | combine {rules : List (Rule α)} (h : ∀ rule ∈ rules, IsComposite rule) :
      IsComposite (combine rules)

/-- Two rules that are built alike, of primitives and of sums of rules. The primitives of the second
are found in the moved plane, with arguments that come along. -/
inductive Rule.Moved (m : Motion α) : Rule α → Rule α → Prop
  | primitive {q q' : Query α}
      (h : ∀ p places, q' (m.move p) (m.places places) = m.carry (.moved m) (q p places)) :
      Moved m q.rule q'.rule
  | combine {pairs : List (Rule α × Rule α)} (h : ∀ e ∈ pairs, Moved m e.1 e.2) :
      Moved m (combine (pairs.map Prod.fst)) (combine (pairs.map Prod.snd))

/-- Whatever a rule is built of, there is one for the moved plane. -/
lemma Rule.IsComposite.exists_moved {rule : Rule α} (h : IsComposite rule) (m : Motion α) :
    ∃ rule', Rule.Moved m rule rule' := by
  induction h with
  | primitive q => exact ⟨(q.moved m).rule, .primitive (q.moved_move m)⟩
  | @combine rules _ ih =>
    choose! moved hmoved using ih
    have hpairs : ∀ e ∈ rules.map (fun rule => (rule, moved rule)), Rule.Moved m e.1 e.2 := by
      intro e he
      obtain ⟨rule, hrule, rfl⟩ := List.mem_map.1 he
      exact hmoved rule hrule
    have hfirst : (rules.map fun rule => (rule, moved rule)).map Prod.fst = rules := by
      rw [List.map_map]
      exact List.map_id rules
    have hsum := Rule.Moved.combine hpairs
    rw [hfirst] at hsum
    exact ⟨_, hsum⟩

/-- The scores that are added up come along one by one, up to the first fault. -/
lemma mapM_scores_moved {m : Motion α} {p : Vec α} {places : Places α}
    {pairs : List (Rule α × Rule α)}
    (h : ∀ e ∈ pairs, e.2 (m.move p) (m.places places) = m.carry id (e.1 p places)) :
    (pairs.map Prod.snd).mapM (fun rule => rule (m.move p) (m.places places)) =
      m.carry id ((pairs.map Prod.fst).mapM fun rule => rule p places) := by
  induction pairs with
  | nil => rfl
  | cons e pairs ih =>
    obtain ⟨he, hpairs⟩ := List.forall_mem_cons.1 h
    rw [List.map_cons, List.map_cons, List.mapM_cons, List.mapM_cons, he, ih hpairs]
    exact m.carry_bind fun s => m.carry_bind fun ss => rfl

lemma Rule.Moved.outcome {m : Motion α} {rule rule' : Rule α} (h : Moved m rule rule')
    (p : Vec α) (places : Places α) :
    rule' (m.move p) (m.places places) = m.carry id (rule p places) := by
  -- on how the rules are built; only the primitives look at the plane
  induction h with
  | @primitive q q' h =>
    unfold Query.rule
    rw [h]
    exact m.carry_bind fun P => P.score_moved m
  | @combine pairs _ ih =>
    unfold Rule.combine
    rw [mapM_scores_moved ih]
    refine m.carry_bind fun scores => ?_
    cases scores with
    | nil => rfl
    | cons s ss => rfl

/-! ## Candidates -/

/-- What a rule makes of a cell, which stands for the position that `locate` finds for it. On the
grid that is `Grid.place`. -/
def Verdict.ofLocated {α : Type} [Scalar α] (locate : Cell → Except (Fault α) (Vec α))
    (rule : Rule α) (places : Places α) (c : Cell) : Except (Fault α) (Verdict α) := do
  let v ← locate c
  ofOutcome (rule v places)

lemma Verdict.ofCell_eq_ofLocated {α : Type} [Scalar α] (decimals : ℤ) (rule : Rule α)
    (places : Places α) :
    ofCell decimals rule places = ofLocated (Grid.place decimals) rule places := rfl

lemma Verdict.ofOutcome_carry (m : Motion α) (o : Except (Fault α) α) :
    ofOutcome (m.carry id o) = m.carry id (ofOutcome o) := by
  cases o with
  | ok s => rfl
  | error f =>
    show (if (m.fault f).isDegenerate then _ else _) = m.carry id (if f.isDegenerate then _ else _)
    rw [m.isDegenerate_fault]
    split_ifs <;> rfl

namespace Candidates

/-- Entries of a map whose cells are called by other names. -/
abbrev renamed {β : Type} (key : Cell → Cell) : Cell × β → Cell × β := Prod.map key id

lemma judge_renamed {m : Motion α} {verdict verdict' : Cell → Except (Fault α) (Verdict α)}
    {key : Cell → Cell} {es : List (Cell × Option α)}
    (h : ∀ e ∈ es, verdict' (key e.1) = m.carry id (verdict e.1)) :
    judge verdict' (es.map (renamed key)) = ((judge verdict es).1.map (renamed key),
      (judge verdict es).2.1, (judge verdict es).2.2.map m.fault) := by
  induction es with
  | nil => rfl
  | cons e es ih =>
    obtain ⟨he, hes⟩ := List.forall_mem_cons.1 h
    have hrenamed : verdict' (renamed key e).1 = m.carry id (verdict e.1) := he
    rw [List.map_cons, judge, judge, hrenamed]
    cases verdict e.1 with
    -- a fault ends both passes at this entry, and the entries behind it keep what they had
    | error f => rfl
    | ok v =>
      dsimp only [Motion.carry, id]
      rw [ih hes]
      rfl

/-- The choice among candidates does not look at their names. -/
lemma better_renamed (key : Cell → Cell) (b n : Cell × α) :
    better (renamed key b) (renamed key n) = renamed key (better b n) :=
  (apply_ite (renamed key) (n.2 ≤ b.2) b n).symm

lemma evaluated_renamed {α : Type} (key : Cell → Cell) {e : Cell × Option α} {b : Cell × α}
    (h : evaluated e = .ok b) : evaluated (renamed key e) = .ok (renamed key b) := by
  obtain ⟨c, score⟩ := e
  cases score with
  | none => cases h
  | some s =>
    cases h
    rfl

lemma foldlM_weigh_renamed (key : Cell → Cell) {es : List (Cell × Option α)} {b r : Cell × α}
    (h : es.foldlM weigh b = .ok r) :
    (es.map (renamed key)).foldlM weigh (renamed key b) = .ok (renamed key r) := by
  induction es generalizing b with
  | nil =>
    cases h
    rfl
  | cons e es ih =>
    rw [List.foldlM_cons] at h
    obtain ⟨b', hweigh, hrest⟩ := bind_eq_ok.1 h
    obtain ⟨next, hnext, hbetter⟩ := bind_eq_ok.1 hweigh
    obtain rfl : better b next = b' := Except.ok.inj hbetter
    rw [List.map_cons, List.foldlM_cons]
    refine bind_eq_ok.2 ⟨renamed key (better b next), ?_, ih hrest⟩
    exact bind_eq_ok.2 ⟨_, evaluated_renamed key hnext,
      congrArg Except.ok (better_renamed key b next)⟩

lemma bestOf_renamed (key : Cell → Cell) {es : List (Cell × Option α)} {r : Cell × α}
    (h : bestOf es = .ok r) : bestOf (es.map (renamed key)) = .ok (renamed key r) := by
  cases es with
  | nil => cases h
  | cons e es =>
    obtain ⟨first, hfirst, hrest⟩ := bind_eq_ok.1 h
    exact bind_eq_ok.2 ⟨_, evaluated_renamed key hfirst, foldlM_weigh_renamed key hrest⟩

end Candidates

/-! ## A moved plane -/

/-- A rule that is built of primitives has a counterpart in a moved plane, and any two that are
built alike agree. They have the same score at a position and at the moved position, or
corresponding faults; in particular one misses a direction exactly where the other does. So they
rate the candidates of a cloud and of the moved cloud alike, in whatever way cells stand for
positions (on the grid by `Grid.place`), and where one of the candidates is chosen, the
corresponding one is chosen in the moved cloud. -/
theorem moved_rules_agree (m : Motion α) {rule : Rule α} (h : Rule.IsComposite rule) :
    (∃ rule', Rule.Moved m rule rule') ∧
    ∀ rule', Rule.Moved m rule rule' → ∀ places : Places α,
      (∀ p, rule' (m.move p) (m.places places) = m.carry id (rule p places)) ∧
      (∀ p, (∃ v, rule' (m.move p) (m.places places) = .error (.zeroLength v)) ↔
        ∃ v, rule p places = .error (.zeroLength v)) ∧
      ∀ (locate locate' : Cell → Except (Fault α) (Vec α)) (key : Cell → Cell)
        (es : List (Cell × Option α)),
        (∀ e ∈ es, locate' (key e.1) = m.carry m.move (locate e.1)) →
        let rated := Candidates.judge (Verdict.ofLocated locate rule places) es
        let rated' := Candidates.judge (Verdict.ofLocated locate' rule' (m.places places))
          (es.map (Candidates.renamed key))
        rated' = (rated.1.map (Candidates.renamed key), rated.2.1, rated.2.2.map m.fault) ∧
        ∀ c s, Candidates.bestOf rated.1 = .ok (c, s) →
          Candidates.bestOf rated'.1 = .ok (key c, s) := by
  refine ⟨h.exists_moved m, fun rule' hmoved places => ?_⟩
  have houtcome (p : Vec α) : rule' (m.move p) (m.places places) = m.carry id (rule p places) :=
    hmoved.outcome p places
  refine ⟨houtcome, fun p => ?_, ?_⟩
  · rw [houtcome]
    exact m.carry_eq_zeroLength_iff
  · -- the verdicts on corresponding cells are the same, so the passes over them are too
    intro locate locate' key es hes rated rated'
    have hverdict : ∀ e ∈ es, Verdict.ofLocated locate' rule' (m.places places) (key e.1) =
        m.carry id (Verdict.ofLocated locate rule places e.1) := by
      intro e he
      unfold Verdict.ofLocated
      rw [hes e he]
      refine m.carry_bind fun v => ?_
      rw [houtcome, Verdict.ofOutcome_carry]
    have hrated : rated' =
        (rated.1.map (Candidates.renamed key), rated.2.1, rated.2.2.map m.fault) :=
      Candidates.judge_renamed hverdict
    refine ⟨hrated, fun c s hbest => ?_⟩
    rw [hrated]
    exact Candidates.bestOf_renamed key hbest

/-! ## On a slope -/

/-- The slope of a right triangle with the sides three, four and five, and a shift. -/
def Motion.slope : Motion Exact where
  cos := 0.6
  sin := 0.8
  shift := ⟨1.0, 2.0⟩
  unit := by decide +kernel

/-- Two points on one ray. -/
def rayPlaces : Places Exact := fun name =>
  if name = "P" then .ok ⟨0.0, 0.0⟩
  else if name = "A" then .ok ⟨6.0, 8.0⟩
  else .error (.unknownPoint name)

/-- Stand on a circle around `P`, and on the ray from there to `A`, away from a landmark. -/
def rayRule (landmark : Vec Exact) : Rule Exact :=
  .combine [
    Query.rule fun p places => do
      let center ← places "P"
      return .onCircle p center 5.0,
    .combine [
      Query.rule fun p places => do
        let a ← places "A"
        let vertex ← places "P"
        return .atAngle 0.0 a vertex p,
      Query.rule fun p places => do
        let near ← places "P"
        return .closerToThan p near landmark]]

lemma isComposite_rayRule (landmark : Vec Exact) : Rule.IsComposite (rayRule landmark) := by
  refine .combine (List.forall_mem_cons.2 ⟨.primitive _, List.forall_mem_singleton.2 ?_⟩)
  exact .combine (List.forall_mem_cons.2
    ⟨.primitive _, List.forall_mem_singleton.2 (.primitive _)⟩)

/-- Only the landmark is mentioned by its position, so that nothing else has to be moved. -/
lemma moved_rayRule (m : Motion Exact) (landmark : Vec Exact) :
    Rule.Moved m (rayRule landmark) (rayRule (m.move landmark)) := by
  refine @Rule.Moved.combine _ _ m [(_, _), (_, _)] ?_
  refine List.forall_mem_cons.2 ⟨.primitive fun p places => m.carry_bind fun _ => rfl, ?_⟩
  refine List.forall_mem_singleton.2 (@Rule.Moved.combine _ _ m [(_, _), (_, _)] ?_)
  refine List.forall_mem_cons.2 ⟨.primitive fun p places => ?_, ?_⟩
  · exact m.carry_bind fun _ => m.carry_bind fun _ => rfl
  · exact List.forall_mem_singleton.2 (.primitive fun p places => m.carry_bind fun _ => rfl)

/-- Three cells, of which the first one stands for the position of `P`. -/
def rayCloud : Candidates Exact where
  entries := [(⟨0, 0⟩, none), (⟨0, 5⟩, none), (⟨3, 4⟩, none)]
  nodup := by decide

/-- Where a cell comes to on the slope, in cells that are a tenth as wide. -/
def slopeCell (c : Cell) : Cell := ⟨6 * c.x - 8 * c.y + 10, 8 * c.x + 6 * c.y + 20⟩

/-- The cells of the cloud as they come to lie on the slope. -/
def slopeCloud : Candidates Exact where
  entries := rayCloud.entries.map (Candidates.renamed slopeCell)
  nodup := by decide

/-- On the slope the point that stands at `(3, 4)` stands at `(-0.4, 6.8)`. It is the best candidate
here and there, with the same score, and `P` itself is degenerate here and there. -/
theorem moved_rules_agree_slope :
    let here := rayCloud.evaluate 0 (rayRule ⟨8.0, 16.0⟩) rayPlaces
    let there := slopeCloud.evaluate 1 (rayRule (Motion.slope.move ⟨8.0, 16.0⟩))
      (Motion.slope.places rayPlaces)
    here.candidates.best = .ok (⟨3, 4⟩, 8.0) ∧ there.candidates.best = .ok (⟨-4, 68⟩, 8.0) ∧
      here.degenerate = 1 ∧ there.degenerate = 1 := by
  intro here there
  have hbest : here.candidates.best = .ok (⟨3, 4⟩, 8.0) := eq_ok_of_toOption (by decide +kernel)
  have hdegenerate : here.degenerate = 1 := by decide +kernel
  have hplace : ∀ e ∈ rayCloud.entries, Grid.place 1 (slopeCell e.1) =
      Motion.slope.carry Motion.slope.move (Grid.place 0 e.1) := by decide +kernel
  obtain ⟨-, hagree⟩ := moved_rules_agree Motion.slope (isComposite_rayRule ⟨8.0, 16.0⟩)
  obtain ⟨hrated, hchoice⟩ := (hagree _ (moved_rayRule _ ⟨8.0, 16.0⟩) rayPlaces).2.2
    (Grid.place 0) (Grid.place 1) slopeCell rayCloud.entries hplace
  exact ⟨hbest, hchoice _ _ hbest, hdegenerate,
    (congrArg (fun rated => rated.2.1) hrated).trans hdegenerate⟩

end PointRelaxation
